import Variability.Proofs.Acts
import Mathlib.Algebra.BigOperators.Ring.Finset

/-!
# The accounts of an analysis

Every edge of a graph is there for one event of the sources, and three counts of the edges are kept
apart: the counters of the second and of the fifth sweep, the metrics and statistics of detection,
and the summary of the graph. They agree because each sweep adds edges of its own relations only and
counts them as it adds them, and because detection adds none.

Compositions need more. The fifth sweep links two nodes only if no edge leads from the one to the
other, and no edge comes after it, so that a composition is the only edge between its ends
(`Graph.ComposedOnce`). Counting the nodes that a node is composed of is then counting its
compositions, although the metric leaves out repetitions.

## Main results

* `Graph.By.appends`, `Analysis.adds_sweep`: what a sweep adds to the edges of any closed graph.
* `Analysis.exists_linked`, `Analysis.exists_built`: the counters of the two sweeps that link types.
* `Analysis.edgeCount_member_declared`: members are delivered methods.
* `Analysis.run_compositions`, `Analysis.run_relationships`: the accounts of a run.
-/

namespace Variability

open Session

/-! ### Counting edges -/

namespace Graph

variable {g h : Graph}

/-- The edges from one node to another, of any relation. -/
def edgesBetween (g : Graph) (s t : NodeId) : List Edge :=
  g.edges.toList.filter fun e => e.source == s && e.target == t

/-- The number of compositions of a node. -/
def composed (g : Graph) (id : NodeId) : Nat :=
  (g.edgesFrom id).countP (·.relation == .composing)

/-- A composition is the only edge between its ends. -/
def ComposedOnce (g : Graph) : Prop :=
  ∀ s t, g.Step .composing s t → g.edgesBetween s t = [⟨s, .composing, t⟩]

theorem edgesBetween_addEdge (s : NodeId) (r : Relation) (t a b : NodeId) :
    (g.addEdge s r t).edgesBetween a b =
      g.edgesBetween a b ++ if s = a ∧ t = b then [⟨s, r, t⟩] else [] := by
  simp [edgesBetween, addEdge, List.filter_cons]

/-- Where nothing is related, there are no edges. -/
theorem edgesBetween_eq_nil {s t : NodeId} (hrelated : g.isRelated s t = false) :
    g.edgesBetween s t = [] := by
  refine List.filter_eq_nil_iff.mpr ?_
  rintro ⟨source, r, target⟩ he hends
  obtain ⟨hs, ht⟩ := (Bool.and_eq_true _ _).mp hends
  obtain rfl : source = s := eq_of_beq hs
  obtain rfl : target = t := eq_of_beq ht
  have hstep : g.isRelated source target = true :=
    isRelated_iff.mpr ⟨r, Array.mem_toList_iff.mp he⟩
  rw [hrelated] at hstep
  exact Bool.false_ne_true hstep

theorem ComposedOnce.of_edges (hg : g.ComposedOnce) (hedges : h.edges = g.edges) :
    h.ComposedOnce := by
  intro s t hstep
  rw [Step, hedges] at hstep
  rw [edgesBetween, hedges]
  exact hg s t hstep

/-- A composition of nodes that no edge relates is the only edge between them. -/
theorem ComposedOnce.addEdge (hg : g.ComposedOnce) {s t : NodeId}
    (hrelated : g.isRelated s t = false) : (g.addEdge s .composing t).ComposedOnce := by
  intro a b hstep
  rw [edgesBetween_addEdge]
  by_cases hends : s = a ∧ t = b
  · obtain ⟨rfl, rfl⟩ := hends
    rw [if_pos ⟨rfl, rfl⟩, edgesBetween_eq_nil hrelated, List.nil_append]
  · rw [if_neg hends, List.append_nil]
    refine hg a b ((Array.mem_push.mp hstep).resolve_right fun heq => hends ?_)
    cases heq
    exact ⟨rfl, rfl⟩

/-- The relations part the edges. -/
theorem length_edges (g : Graph) :
    g.edges.toList.length = g.edgeCount (· == .member) +
      g.edgeCount Relation.inheritance.contains + g.edgeCount (· == .composing) := by
  unfold edgeCount
  induction g.edges.toList with
  | nil => rfl
  | cons e es ih =>
      simp only [List.length_cons, List.countP_cons, ih]
      cases e.relation <;> simp [Relation.inheritance] <;> omega

theorem composed_eq (g : Graph) (id : NodeId) :
    g.composed id = g.edges.toList.countP fun e => e.relation == .composing && e.source == id := by
  rw [composed, edgesFrom_eq, List.countP_filter]

/-- Where compositions are not doubled, no two of them lead from one node to another. -/
theorem ComposedOnce.nodup (hg : g.ComposedOnce) (id : NodeId) :
    (((g.edgesFrom id).filter (·.relation.isAmong [.composing])).map (·.target)).Nodup := by
  refine List.nodup_iff_count_le_one.mpr fun t => ?_
  by_cases hstep : g.Step .composing id t
  · calc List.count t (((g.edgesFrom id).filter (·.relation.isAmong [.composing])).map (·.target))
        = ((g.edgesBetween id t).filter (·.relation.isAmong [.composing])).length := by
          rw [List.count_eq_countP, List.countP_map, List.countP_eq_length_filter, edgesFrom_eq,
            edgesBetween, List.filter_filter, List.filter_filter, List.filter_filter]
          refine congrArg List.length (List.filter_congr fun e _ => ?_)
          simp only [Function.comp_apply]
          cases e.source == id <;> cases e.target == t <;> simp
      _ ≤ (g.edgesBetween id t).length := List.length_filter_le _ _
      _ = 1 := by rw [hg id t hstep, List.length_singleton]
  · rw [List.count_eq_zero.mpr fun hmem => hstep ?_]
    · exact Nat.zero_le 1
    have htarget : t ∈ g.targets [.composing] id := List.mem_eraseDups.mpr hmem
    obtain ⟨r, hr, hstep⟩ := mem_targets.mp htarget
    obtain rfl : r = .composing := by
      simpa [Relation.isAmong] using hr
    exact hstep

/-- Where compositions are not doubled, the nodes that a node is composed of are as many as its
compositions. -/
theorem ComposedOnce.length_targets (hg : g.ComposedOnce) (id : NodeId) :
    (g.targets [.composing] id).length = g.composed id := by
  have hperm : (g.targets [.composing] id).Perm
      (((g.edgesFrom id).filter (·.relation.isAmong [.composing])).map (·.target)) :=
    (List.perm_ext_iff_of_nodup (g.nodup_targets _ id) (hg.nodup id)).mpr
      fun _ => List.mem_eraseDups
  rw [hperm.length_eq, List.length_map, composed, List.countP_eq_length_filter]
  refine congrArg List.length (List.filter_congr fun e _ => ?_)
  cases e.relation <;> rfl

/-- The compositions of some nodes, counted node by node, are those that start at one of them. -/
theorem sum_composed (g : Graph) {ids : List NodeId} (hids : ids.Nodup) :
    (ids.map g.composed).sum =
      g.edges.toList.countP fun e => e.relation == .composing && ids.contains e.source := by
  have hsum := g.sum_countP_source (·.relation == .composing) hids
  simp only [← composed_eq] at hsum
  exact hsum

/-- The compositions of the nodes that meet a condition, counted by their sources. -/
theorem Closed.sum_composed_idsWhere (hg : g.Closed) (c : Entity → Bool) :
    ((g.idsWhere c).map g.composed).sum =
      g.edges.toList.countP fun e => e.relation == .composing && c (g.entity e.source) := by
  have hids : (g.idsWhere c).Nodup := List.nodup_range.filter _
  rw [sum_composed g hids]
  refine List.countP_congr fun e he => ?_
  have hlt : e.source < g.size := (hg e (Array.mem_toList_iff.mp he)).1
  simp [mem_idsWhere, hlt]

/-! ### What is added to the edges -/

/-- The edges of `h` are those of `g`, followed by edges of some relations only. -/
def Appends (p : Relation → Prop) (g h : Graph) : Prop :=
  ∃ new, h.edges.toList = g.edges.toList ++ new ∧ ∀ e ∈ new, p e.relation

theorem Appends.addEdge {p : Relation → Prop} (H : g.Appends p h) {s t : NodeId} {r : Relation}
    (hr : p r) : g.Appends p (h.addEdge s r t) := by
  obtain ⟨new, hedges, hnew⟩ := H
  refine ⟨new ++ [⟨s, r, t⟩], ?_, ?_⟩
  · simp [Graph.addEdge, hedges]
  · intro e he
    rcases List.mem_append.mp he with he | he
    · exact hnew e he
    · obtain rfl := List.mem_singleton.mp he
      exact hr

/-- Acts add edges of their own relations. -/
theorem By.appends {S : Act → Prop} {p : Relation → Prop} (H : By S g h)
    (hS : ∀ a, S a → ∀ r, a.relation? = some r → p r) : g.Appends p h := by
  induction H with
  | refl => exact ⟨[], (List.append_nil _).symm, by simp⟩
  | tail _ hstep ih =>
      obtain ⟨a, ha, rfl⟩ := hstep
      cases a with
      | type => exact ih
      | member => exact ih.addEdge (hS _ ha _ rfl)
      | note => exact ih
      | link => exact ih.addEdge (hS _ ha _ rfl)

end Graph

/-- On every closed graph the program succeeds, leaves a closed graph, and adds edges of some
relations only. -/
def Session.Adds {α : Type} (p : Relation → Prop) (x : Session α) : Prop :=
  ∀ g : Graph, g.Closed → ∃ a h, Yields x g a h ∧ h.Closed ∧ g.Appends p h

/-- On every closed graph the program succeeds, leaves a closed graph, and adds neither nodes nor
edges. -/
def Session.KeepsShape {α : Type} (x : Session α) : Prop :=
  ∀ g : Graph, g.Closed → ∃ a h, Yields x g a h ∧ h.Closed ∧ h.size = g.size ∧ h.edges = g.edges

/-- Where the program succeeds on a closed graph, it leaves a closed graph and adds neither nodes
nor edges. -/
def Session.LeavesShape {α : Type} (x : Session α) : Prop :=
  ∀ g : Graph, g.Closed → ∀ a h, Yields x g a h →
    h.Closed ∧ h.size = g.size ∧ h.edges = g.edges

theorem Session.KeepsShape.leavesShape {α : Type} {x : Session α} (hx : KeepsShape x) :
    LeavesShape x := by
  intro g hg a h hyields
  obtain ⟨a', h', hyields', hshape⟩ := hx g hg
  obtain ⟨-, rfl⟩ := hyields.unique hyields'
  exact hshape

/-- Rules add neither nodes nor edges. -/
theorem Session.Applies.keepsShape {x : Session Unit} {rules : List Rule} (hx : Applies x rules) :
    KeepsShape x := by
  intro g hg
  have hagree : g.Agree (fun _ => False) (Rule.applyAll rules g) :=
    Rule.agree_applyAll (fun _ _ => id) g
  exact ⟨(), _, hx hg, Rule.closed_applyAll hg rules, hagree.size, hagree.edges⟩

/-! ### Counters -/

namespace Sweep

/-- Every link to a supertype is counted, and no more links are corrected than made. -/
theorem SupertypeCounts.kept_links : Kept fun n g =>
    n.links = g.edgeCount Relation.inheritance.contains ∧ n.corrected ≤ n.links := by
  rintro n g c subtype relation r hrelation ⟨hlinks, hle⟩
  have hcount : (Effect.linkSupertype c subtype relation g r).edgeCount
      Relation.inheritance.contains = g.edgeCount Relation.inheritance.contains + 1 := by
    rw [Effect.linkSupertype, Graph.edgeCount_addEdge, Graph.edgeCount_ask,
      if_pos (List.contains_iff_mem.mpr hrelation)]
  unfold Effect.countLink
  split
  · exact ⟨by rw [hcount, hlinks], Nat.le_succ_of_le hle⟩
  · exact ⟨by rw [hcount, hlinks], Nat.succ_le_succ hle⟩

/-- Every composition is counted, and none is doubled. -/
theorem CompositionCounts.kept_links : Kept fun n g =>
    n.links = g.edgeCount (· == .composing) ∧ g.ComposedOnce where
  ask name kind := by
    rintro ⟨hlinks, honce⟩
    exact ⟨by rw [hlinks, Graph.edgeCount_ask], honce.of_edges (Graph.edges_ask ..)⟩
  link s t hrelated := by
    rintro ⟨hlinks, honce⟩
    exact ⟨by rw [hlinks, Graph.edgeCount_addEdge]; rfl, honce.addEdge hrelated⟩

end Sweep

/-- Whether an event declares a member of a known type. -/
def Event.declaresMember : Event → Bool
  | .method d => d.declaring.isSome
  | _ => false

namespace Analysis

variable {g : Graph}

/-- A sweep whose handlers keep its counters in step with the graph. -/
theorem exists_tallied {σ : Type} [Inhabited σ] {s : Sweep (StateT σ Session)}
    {E : Sweep.Context → Event → Graph → Graph} {I : σ → Graph → Prop} (h : s.Tallying E I)
    (hE : s.Acting E) (hs : s.Building) (units : List SourceUnit) (hg : g.Closed) {start : σ}
    (hstart : I start g) :
    ∃ report n, Yields (sweep s start units) g (report, n)
      (Sweep.apply E (Sweep.deliveries units) g) ∧
      I n (Sweep.apply E (Sweep.deliveries units) g) := by
  obtain ⟨report, hturns⟩ := h.turnsIn_run hE hs units hg
  obtain ⟨n, hyields, hn⟩ := hturns start hstart
  exact ⟨report, n, hyields, hn⟩

/-- A sweep adds the edges of its acts. -/
theorem adds_sweep {σ : Type} [Inhabited σ] {s : Sweep (StateT σ Session)}
    {E : Sweep.Context → Event → Graph → Graph} {A : Sweep.Context → Event → Act → Prop}
    {p : Relation → Prop} (h : s.Acting E) (hs : s.Building)
    (hE : ∀ c e g, Graph.By (A c e) g (E c e g))
    (hA : ∀ c e a, A c e a → ∀ r, a.relation? = some r → p r) (start : σ)
    (units : List SourceUnit) : Adds p (sweep s start units) := by
  intro g hg
  obtain ⟨report, hyields⟩ := yields_sweep_apply units h hs start hg
  have hgrown : g.Grown (Sweep.apply E (Sweep.deliveries units) g) :=
    h.grown_apply hs (fun _ _ => Sweep.isHandled_of_mem_deliveries) hg
  refine ⟨report, _, hyields, hgrown.closed hg, (Sweep.by_apply hE _).appends ?_⟩
  rintro a ⟨c, e, -, ha⟩
  exact hA c e a ha

variable (units : List SourceUnit)

/-- The second sweep, with its counters. -/
theorem exists_linked : ∃ report n,
    Yields (sweep Sweep.supertypes {} units) (declared units) (report, n) (linked units) ∧
      n.links = (linked units).edgeCount Relation.inheritance.contains ∧
      n.corrected ≤ n.links := by
  refine exists_tallied (Sweep.tallying_supertypes Sweep.SupertypeCounts.kept_links)
    Sweep.acting_supertypes Sweep.building_supertypes units (sound_declared units).closed
    ⟨?_, Nat.le_refl 0⟩
  refine ((by_declared units).edgeCount ?_).symm
  rintro a ⟨c, e, -, ha⟩ r hr
  rw [ha.relation hr]
  rfl

/-- The fifth sweep, with its counters. -/
theorem exists_built : ∃ report n,
    Yields (sweep Sweep.compositions {} units) (produced units) (report, n) (built units) ∧
      n.links = (built units).edgeCount (· == .composing) ∧ (built units).ComposedOnce := by
  have hnone := by_notComposing units
  refine exists_tallied (Sweep.tallying_compositions Sweep.CompositionCounts.kept_links)
    Sweep.acting_compositions Sweep.building_compositions units (sound_produced units).closed
    ⟨(hnone.edgeCount ?_).symm, ?_⟩
  · intro a ha r hr
    exact beq_false_of_ne fun heq => ha (heq ▸ hr)
  · intro s t hstep
    rw [hnone.step_iff fun a ha => ha] at hstep
    exact absurd hstep (by simp [Graph.Step, Graph.empty])

/-- A method of a known type is one edge to a member; nothing else is. -/
theorem edgeCount_member_declarations (c : Sweep.Context) (e : Event) :
    (Effect.declarations c e g).edgeCount (· == .member) =
      g.edgeCount (· == .member) + if e.declaresMember then 1 else 0 := by
  cases e with
  | entered d => exact Graph.edgeCount_ask ..
  | method d =>
      cases hd : d.declaring with
      | none => simp [Effect.declarations, Effect.declareMember, Event.declaresMember, hd]
      | some declaring =>
          simp only [Effect.declarations, Effect.declareMember, Event.declaresMember, hd]
          rw [Graph.edgeCount_addEdge, Graph.edgeCount_addNode, Graph.edgeCount_ask]
          rfl
  | _ => rfl

/-- **Members are delivered methods.** -/
theorem edgeCount_member_declared :
    (declared units).edgeCount (· == .member) =
      (Sweep.heard units).countP (·.2.declaresMember) := by
  have happly : ∀ (ds : List (Sweep.Context × Event)) (g : Graph),
      (Sweep.apply Effect.declarations ds g).edgeCount (· == .member) =
        g.edgeCount (· == .member) + ds.countP (·.2.declaresMember) := by
    intro ds
    induction ds with
    | nil => exact fun _ => rfl
    | cons d ds ih =>
        intro g
        have hstep := edgeCount_member_declarations (g := g) d.1 d.2
        have hrest := ih (Effect.declarations d.1 d.2 g)
        rw [List.countP_cons]
        rw [hstep] at hrest
        exact hrest.trans (by omega)
  rw [Sweep.heard_eq_deliveries, declared, happly]
  exact Nat.zero_add _

/-! ### The accounts -/

/-- What an analysis answers about the graph it leaves. -/
theorem exists_run (thresholds : HotspotThresholds) : ∃ summary,
    Yields (run thresholds units) .empty summary (detected thresholds (built units)) ∧
      summary.inheritanceLinks = (built units).edgeCount Relation.inheritance.contains ∧
      summary.correctedLinks ≤ summary.inheritanceLinks ∧
      summary.statistics = (detected thresholds (built units)).statistics ∧
      summary.graph = (detected thresholds (built units)).summary := by
  obtain ⟨_, n, hlinked, hlinks, hcorrected⟩ := exists_linked units
  obtain ⟨_, _, hbuilt, -, -⟩ := exists_built units
  obtain ⟨passes, hrun⟩ := yields_run_counted thresholds
    (yields_sweep_apply units Sweep.acting_declarations Sweep.building_declarations {}
      Graph.closed_empty) hlinked
    (yields_sweep_apply units Sweep.acting_roles Sweep.building_roles {}
      (sound_linked units).closed)
    (yields_sweep_apply units Sweep.acting_factories Sweep.building_factories {}
      (sound_marked units).closed) ⟨_, hbuilt⟩ (sound_built units).closed
  refine ⟨_, hrun, hlinks.trans ?_, hcorrected, rfl, rfl⟩
  refine ((by_composing units).edgeCount fun a ha r hr => ?_).symm
  rw [ha r hr]
  rfl

end Analysis

/-- Where the metric is the number of compositions, the statistics count those of classes. -/
theorem Graph.Closed.compositionClasses_eq {g h : Graph} (hg : g.Closed)
    (hclasses : h.idsWhere (·.has .classType) = g.idsWhere (·.has .classType))
    (hmetric : ∀ n, (h.entity n).count .compositions = .ofNat (g.composed n)) :
    h.statistics.compositionClasses = .ofNat (g.edges.toList.countP fun e =>
      e.relation == .composing && (g.entity e.source).has .classType) := by
  have hsum := hg.sum_composed_idsWhere (·.has .classType)
  have hcounts : ∀ node ∈ (h.idsWhere (·.has .classType)).map h.nodeAt,
      node.count .compositions = .ofNat (g.composed node.id) := by
    intro node hnode
    obtain ⟨n, -, rfl⟩ := List.mem_map.mp hnode
    exact hmetric n
  rw [compositionClasses_statistics, Statistics.total_ofNat hcounts, List.map_map, hclasses, ← hsum]
  rfl

namespace Analysis

variable (units : List SourceUnit) (thresholds : HotspotThresholds)

/-- After detection, a node has as its metric the number of its compositions. -/
theorem property?_compositions (n : NodeId) :
    ((detected thresholds (built units)).entity n).property? .compositions =
      if (built units).composed n = 0 then none
      else some (.ofCount ((built units).composed n)) := by
  obtain ⟨-, -, -, -, honce⟩ := exists_built units
  have hunset : ((built units).entity n).property? .compositions = none :=
    (((grown_empty_built units).undetected Graph.undetected_empty) n).property? _
  have hselected : (n ∈ (List.range (built units).size).filter
      fun id => !((built units).targets [.composing] id).isEmpty) ∧ n < (built units).size ↔
      (built units).composed n ≠ 0 := by
    rw [List.mem_filter, List.mem_range, ← honce.length_targets]
    constructor
    · rintro ⟨⟨-, hsome⟩, -⟩ hzero
      rw [List.length_eq_zero_iff.mp hzero] at hsome
      exact absurd hsome (by decide)
    · intro hne
      obtain ⟨t, ht⟩ := List.exists_mem_of_length_pos (Nat.pos_of_ne_zero hne)
      obtain ⟨r, -, hstep⟩ := Graph.mem_targets.mp ht
      have hlt := ((sound_built units).closed.step hstep).1
      refine ⟨⟨hlt, ?_⟩, hlt⟩
      simpa using List.ne_nil_of_mem ht
  have hmetric := Rule.property?_applyAll_metric Variation.nodup_traits
    Variation.not_isGiven_of_mem_rules (k := 10) rfl Rule.reads_compositions (built units) n
  rw [detected, (Hotspot.agree_detected thresholds _).property? (by decide), hmetric, hunset,
    honce.length_targets]
  by_cases hzero : (built units).composed n = 0
  · rw [if_pos hzero, if_neg fun h => hselected.mp h hzero]
  · rw [if_neg hzero, if_pos (hselected.mpr hzero)]

/-- The statistics count the compositions of classes. -/
theorem compositionClasses_detected :
    (detected thresholds (built units)).statistics.compositionClasses =
      .ofNat ((built units).edges.toList.countP fun e => e.relation == .composing &&
        ((built units).entity e.source).has .classType) := by
  refine (sound_built units).closed.compositionClasses_eq ?_ fun n => ?_
  · exact (agree_detected thresholds _).idsWhere fun id =>
      (agree_detected thresholds _).has (l := .classType) rfl id
  · rw [Entity.count, Entity.int?, property?_compositions]
    by_cases hzero : (built units).composed n = 0
    · rw [if_pos hzero, hzero]
      rfl
    · rw [if_neg hzero]
      rfl

/-- The five sweeps in turn; answers the report and the counters of the last. -/
def sweeps (units : List SourceUnit) : Session (Sweep.Report × Sweep.CompositionCounts) := do
  let _ ← sweep Sweep.declarations {} units
  let _ ← sweep Sweep.supertypes {} units
  let _ ← sweep Sweep.roles {} units
  let _ ← sweep Sweep.factories {} units
  sweep Sweep.compositions {} units

/-- All counts of compositions agree, for an analysis that answers a summary and leaves `g`. -/
structure CompositionAccount (thresholds : HotspotThresholds) (units : List SourceUnit)
    (summary : RunSummary) (g : Graph) : Prop where
  /-- A composition is the only edge, of any relation, from its source to its target. -/
  once : ∀ s t, g.Step .composing s t → g.edgesBetween s t = [⟨s, .composing, t⟩]
  /-- The metric of a node is the number of its compositions; it is unset if there are none. -/
  metric : ∀ n, (g.entity n).property? .compositions =
    if g.composed n = 0 then none else some (.ofCount (g.composed n))
  /-- The statistics have the compositions whose source is a class. -/
  statistics : summary.statistics.compositionClasses = .ofNat (g.edges.toList.countP fun e =>
    e.relation == .composing && (g.entity e.source).has .classType)
  /-- The summary of the graph has all compositions. -/
  graph : summary.graph.compositions = g.edges.toList.countP (·.relation == .composing)
  /-- So has the counter of the fifth sweep, after which detection arrives at `g`. -/
  counter : ∃ report n h, Yields (sweeps units) .empty (report, n) h ∧
    Yields (do Variation.detect; Hotspot.detect thresholds) h () g ∧
    n.links = summary.graph.compositions

/-- **Compositions are never doubled, and all counts of them agree**: after an analysis that starts
on the empty graph, for all thresholds and source units. -/
theorem run_compositions : ∃ summary g, Yields (run thresholds units) .empty summary g ∧
    CompositionAccount thresholds units summary g := by
  have hagree := agree_detected thresholds (built units)
  obtain ⟨summary, hrun, -, -, hstatistics, hgraph⟩ := exists_run units thresholds
  obtain ⟨report, n, hbuilt, hlinks, honce⟩ := exists_built units
  have hcomposed : ∀ id,
      (detected thresholds (built units)).composed id = (built units).composed id := by
    intro id
    rw [Graph.composed_eq, Graph.composed_eq, hagree.edges]
  refine ⟨summary, _, hrun, ?_⟩
  constructor
  case once => exact honce.of_edges hagree.edges
  case metric =>
    intro id
    rw [hcomposed]
    exact property?_compositions units thresholds id
  case statistics =>
    rw [hstatistics, compositionClasses_detected, hagree.edges]
    simp only [hagree.has (l := .classType) rfl]
  case graph => rw [hgraph, Graph.compositions_summary, Graph.edgeCount]
  case counter =>
    obtain ⟨_, hdeclared⟩ := yields_sweep_apply units Sweep.acting_declarations
      Sweep.building_declarations {} Graph.closed_empty
    obtain ⟨_, hlinked⟩ := yields_sweep_apply units Sweep.acting_supertypes
      Sweep.building_supertypes {} (sound_declared units).closed
    obtain ⟨_, hmarked⟩ := yields_sweep_apply units Sweep.acting_roles Sweep.building_roles {}
      (sound_linked units).closed
    obtain ⟨_, hproduced⟩ := yields_sweep_apply units Sweep.acting_factories
      Sweep.building_factories {} (sound_marked units).closed
    have hclosed := (sound_built units).closed
    have hhotspots := Hotspot.applies_detect thresholds
      (Rule.closed_applyAll hclosed Variation.rules)
    refine ⟨report, n, built units,
      hdeclared.bind (hlinked.bind (hmarked.bind (hproduced.bind hbuilt))),
      (Variation.applies_detect hclosed).bind hhotspots, ?_⟩
    rw [hlinks, hgraph, Graph.compositions_summary, Graph.edgeCount, Graph.edgeCount,
      hagree.edges]

/-- What the parts of an analysis add to any closed graph. The hotspot rules add numbers, so that
they succeed is said of whole analyses only. -/
structure EdgesByPart (thresholds : HotspotThresholds) (units : List SourceUnit) : Prop where
  declarations : Adds (· = .member) (sweep Sweep.declarations {} units)
  supertypes : Adds (· ∈ Relation.inheritance) (sweep Sweep.supertypes {} units)
  roles : Adds (fun _ => False) (sweep Sweep.roles {} units)
  factories : Adds (fun _ => False) (sweep Sweep.factories {} units)
  compositions : Adds (· = .composing) (sweep Sweep.compositions {} units)
  points : KeepsShape Variation.detect
  hotspots : LeavesShape (Hotspot.detect thresholds)

theorem edgesByPart : EdgesByPart thresholds units where
  declarations := adds_sweep Sweep.acting_declarations Sweep.building_declarations
    (fun c e _ => Sweep.by_declarations c e) (fun _ _ _ ha _ hr => ha.relation hr) {} units
  supertypes := adds_sweep Sweep.acting_supertypes Sweep.building_supertypes
    (fun c e _ => Sweep.by_supertypes c e) (fun _ _ _ ha _ hr => ha.relation hr) {} units
  roles := adds_sweep Sweep.acting_roles Sweep.building_roles
    (fun c e _ => Sweep.by_roles c e) (fun _ _ _ ha _ hr => by simp [ha.relation] at hr) {} units
  factories := adds_sweep Sweep.acting_factories Sweep.building_factories
    (fun _ e _ => Sweep.by_factories e) (fun _ _ _ ha _ hr => by simp [ha.relation] at hr) {} units
  compositions := adds_sweep Sweep.acting_compositions Sweep.building_compositions
    (fun c e _ => Sweep.by_compositions c e) (fun _ _ _ ha _ hr => ha.relation hr) {} units
  points := Variation.applies_detect.keepsShape
  hotspots := (Hotspot.applies_detect thresholds).keepsShape.leavesShape

/-- All counts of edges agree. -/
structure EdgeAccount (units : List SourceUnit) (summary : RunSummary) (g : Graph) : Prop where
  /-- The summary is that of the graph. -/
  graph : summary.graph = g.summary
  /-- The links of the second sweep are the inheritance edges. -/
  inheritance : summary.graph.inheritance = summary.inheritanceLinks
  /-- No more links are corrected than made. -/
  corrected : summary.correctedLinks ≤ summary.inheritanceLinks
  /-- An edge is a method of a known type that handlers got, a link to a supertype or a
  composition. -/
  relationships : summary.graph.relationships =
    (Sweep.heard units).countP (·.2.declaresMember) + summary.inheritanceLinks +
      summary.graph.compositions

/-- **The edges of a run add up**: after an analysis that starts on the empty graph, for all
thresholds and source units; and each part of an analysis adds edges of its own relations only. -/
theorem run_relationships : (∃ summary g, Yields (run thresholds units) .empty summary g ∧
    EdgeAccount units summary g) ∧ EdgesByPart thresholds units := by
  refine ⟨?_, edgesByPart units thresholds⟩
  have hedges := (agree_detected thresholds (built units)).edges
  have hcount : ∀ p, (detected thresholds (built units)).edgeCount p =
      (built units).edgeCount p := by
    intro p
    rw [Graph.edgeCount, Graph.edgeCount, hedges]
  obtain ⟨summary, hrun, hlinks, hcorrected, -, hgraph⟩ := exists_run units thresholds
  have hmember : (built units).edgeCount (· == .member) =
      (Sweep.heard units).countP (·.2.declaresMember) := by
    rw [← edgeCount_member_declared]
    refine (by_isLater units).edgeCount fun a ha r hr => ?_
    cases a with
    | type => cases hr
    | member => exact ha.elim
    | note => cases hr
    | link =>
        cases hr
        exact beq_false_of_ne ha
  refine ⟨summary, _, hrun, hgraph, ?_, hcorrected, ?_⟩
  · rw [hgraph, hlinks, Graph.inheritance_summary, hcount]
  · rw [hgraph, hlinks, Graph.relationships_summary, Graph.compositions_summary,
      Graph.length_edges, hcount, hcount, hcount, hmember]

end Analysis

end Variability
