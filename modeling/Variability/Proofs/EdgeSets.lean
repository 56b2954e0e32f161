import Mathlib.Data.List.Sort
import Variability.Proofs.Analysis
import Variability.Proofs.Idempotence
import Variability.Proofs.NameCount

/-!
# Detection sees edges as a set

Edges are kept in the order of their creation, and one may be there several times. Detection goes
through them in this order: it lists the neighbours of a node, counts them by name, searches along
compositions and spreads flags in rounds. What it finds depends on none of this. Two graphs with the
same nodes, in which edges of the same relations lead between the same nodes (`Graph.Alike`), are
alike after detection, and have the same statistics.

The proof goes rule by rule. Neighbours, names, groups and crowds are lists without repetitions or
in increasing order, and such lists have the same length, or are equal, if they have the same
members. So each rule selects the same nodes in both graphs and gives them the same values
(`Rule.OrderFree`), and leaves graphs that are alike for the next one.

## Main results

* `Graph.Alike.perm_targets`, `Graph.Alike.perm_reachable`: neighbours and groups, up to order.
* `Rule.OrderFree.alike_apply`, `Rule.alike_applyAll`: one rule, and a sequence of rules.
* `detection_alike`: both detections and the statistics.
-/

namespace Variability

open Session

/-! ### Lists in increasing order -/

namespace NameCount

instance : Std.Irrefl fun c d : NameCount => c.name < d.name := ⟨fun c => lt_irrefl c.name⟩

instance : Std.Antisymm fun c d : NameCount => c.name < d.name :=
  ⟨fun _ _ h h' => absurd h' (lt_asymm h)⟩

/-- Counts by name do not depend on the order of the names. -/
theorem tally_eq_of_perm {names names' : List String} (h : names.Perm names') :
    tally names = tally names' := by
  refine List.Pairwise.eq_of_mem_iff (right_tally names).2 (right_tally names').2 fun c => ?_
  rw [mem_tally, mem_tally, h.count_eq]

end NameCount

namespace Hotspot

theorem pairwise_insertId (id : NodeId) {ids : List NodeId} (h : ids.Pairwise (· < ·)) :
    (insertId id ids).Pairwise (· < ·) := by
  induction ids with
  | nil => exact List.pairwise_singleton _ _
  | cons x xs ih =>
      obtain ⟨hx, hxs⟩ := List.pairwise_cons.mp h
      rw [insertId]
      split
      · rename_i hlt
        refine List.pairwise_cons.mpr ⟨fun y hy => ?_, h⟩
        rcases List.mem_cons.mp hy with rfl | hy
        · exact hlt
        · exact Nat.lt_trans hlt (hx y hy)
      · split
        · exact h
        · rename_i hle hne
          refine List.pairwise_cons.mpr ⟨fun y hy => ?_, ih hxs⟩
          rcases mem_insertId.mp hy with rfl | hy
          · exact Nat.lt_of_le_of_ne (Nat.le_of_not_lt hle) fun heq => hne heq.symm
          · exact hx y hy

/-- Distinct numbers are in increasing order. -/
theorem pairwise_distinctIds (ids : List NodeId) : (distinctIds ids).Pairwise (· < ·) :=
  List.foldlRecOn (motive := List.Pairwise (· < ·)) ids _ List.Pairwise.nil
    fun _ hacc id _ => pairwise_insertId id hacc

/-- Distinct numbers depend on the members of a list only. -/
theorem distinctIds_eq_of_mem_iff {ids ids' : List NodeId} (h : ∀ n, n ∈ ids ↔ n ∈ ids') :
    distinctIds ids = distinctIds ids' := by
  refine (pairwise_distinctIds ids).eq_of_mem_iff (pairwise_distinctIds ids') fun n => ?_
  rw [mem_distinctIds, mem_distinctIds, h]

end Hotspot

/-! ### Graphs that are alike -/

namespace Graph

/-- Two graphs with the same nodes, in which edges of the same relations lead between the same
nodes. Edges may be in another order, and there another number of times. -/
structure Alike (g h : Graph) : Prop where
  size : h.size = g.size
  entity : ∀ n, h.entity n = g.entity n
  edge : ∀ e, e ∈ h.edges ↔ e ∈ g.edges

namespace Alike

variable {g h : Graph}

theorem symm (H : g.Alike h) : h.Alike g :=
  ⟨H.size.symm, fun n => (H.entity n).symm, fun e => (H.edge e).symm⟩

theorem closed (H : g.Alike h) (hg : g.Closed) : h.Closed := by
  intro e he
  rw [H.size]
  exact hg e ((H.edge e).mp he)

theorem step (H : g.Alike h) {r : Relation} {s t : NodeId} : h.Step r s t ↔ g.Step r s t :=
  H.edge _

theorem reaches (H : g.Alike h) {r : Relation} {s t : NodeId} (hst : h.Reaches r s t) :
    g.Reaches r s t := by
  induction hst with
  | start => exact .start
  | step _ hstep ih => exact ih.step (H.step.mp hstep)

theorem idsWhere (H : g.Alike h) (c : Entity → Bool) : h.idsWhere c = g.idsWhere c := by
  unfold Graph.idsWhere
  rw [H.size]
  exact List.filter_congr fun n _ => by rw [H.entity]

theorem mem_edgesOf (H : g.Alike h) (pattern : HopPattern) (e : Edge) :
    e ∈ h.edgesOf pattern ↔ e ∈ g.edgesOf pattern := by
  rw [Graph.mem_edgesOf, Graph.mem_edgesOf, H.step, H.entity, H.entity]

/-- **Neighbours are the same, up to order.** -/
theorem perm_targets (H : g.Alike h) (relations : List Relation) (n : NodeId) :
    (h.targets relations n).Perm (g.targets relations n) := by
  refine (List.perm_ext_iff_of_nodup (nodup_targets ..) (nodup_targets ..)).mpr fun m => ?_
  rw [mem_targets, mem_targets]
  exact exists_congr fun r => and_congr_right fun _ => H.step

theorem countP_targets (H : g.Alike h) (relations : List Relation) (n : NodeId)
    (c : Entity → Bool) :
    (h.targets relations n).countP (fun m => c (h.entity m)) =
      (g.targets relations n).countP fun m => c (g.entity m) := by
  simp only [H.entity]
  exact (H.perm_targets relations n).countP_eq _

theorem variantCount (H : g.Alike h) (n : NodeId) : h.variantCount n = g.variantCount n :=
  H.countP_targets Relation.inheritance n (·.has .classType)

theorem memberCount (H : g.Alike h) (n : NodeId) (ls : List Label) :
    h.memberCount n ls = g.memberCount n ls :=
  H.countP_targets [] n fun e => ls.all e.has

theorem tally_memberNames (H : g.Alike h) (n : NodeId) (l : Label) :
    NameCount.tally (h.memberNames n l) = NameCount.tally (g.memberNames n l) := by
  refine NameCount.tally_eq_of_perm ?_
  simp only [memberNames, H.entity]
  exact ((H.perm_targets [] n).filter _).map _

/-- **Groups are the same, up to order.** -/
theorem perm_reachable (H : g.Alike h) (hg : g.Closed) (relation : Relation) {v : NodeId}
    (hv : v < g.size) : (h.reachable relation v).Perm (g.reachable relation v) := by
  refine (List.perm_ext_iff_of_nodup (nodup_reachable ..) (nodup_reachable ..)).mpr fun n => ?_
  have hv' : v < h.size := H.size ▸ hv
  rw [mem_reachable (H.closed hg) hv', mem_reachable hg hv]
  exact ⟨H.reaches, H.symm.reaches⟩

/-- Statistics depend on the nodes only. -/
theorem statistics (H : g.Alike h) : h.statistics = g.statistics := by
  have hnodes : h.nodeAt = g.nodeAt := funext fun n => by rw [nodeAt, nodeAt, H.entity]
  simp only [Graph.statistics, H.idsWhere, hnodes]

/-- So do their sums. -/
theorem sumsFit (H : g.Alike h) (hg : g.SumsFit) : h.SumsFit := by
  have hnodes : h.nodeAt = g.nodeAt := funext fun n => by rw [nodeAt, nodeAt, H.entity]
  obtain ⟨hoverloads, htotals, hmethodPoints, hpoints, hmethodVariants, hvariants⟩ := hg
  rw [← H.statistics] at hmethodPoints hpoints hmethodVariants hvariants
  refine ⟨fun n => ?_, ?_, hmethodPoints, hpoints, hmethodVariants, hvariants⟩
  · rw [H.entity]
    exact hoverloads n
  · rw [H.idsWhere, hnodes]
    exact htotals

end Alike

end Graph

/-! ### Rules -/

namespace Rule

variable {g h : Graph}

/-- In graphs that are alike, a rule selects the same nodes and gives them the same values. -/
def OrderFree : Rule → Prop
  | mark _ selects => ∀ g h : Graph, g.Closed → g.Alike h → ∀ n, n ∈ selects h ↔ n ∈ selects g
  | put _ selects value => ∀ g h : Graph, g.Closed → g.Alike h → ∀ n,
      (n ∈ selects h ↔ n ∈ selects g) ∧ value h n = value g n

/-- **A rule leaves graphs alike.** -/
theorem OrderFree.alike_apply {r : Rule} (hr : r.OrderFree) (hg : g.Closed) (H : g.Alike h) :
    (r.apply g).Alike (r.apply h) := by
  cases r with
  | mark l selects =>
      refine ⟨?_, fun n => ?_, fun e => ?_⟩
      · rw [apply, apply, Graph.size_labelAll, Graph.size_labelAll, H.size]
      · rw [apply, apply, Graph.entity_labelAll, Graph.entity_labelAll, H.entity, H.size]
        simp only [hr g h hg H n]
      · rw [apply, apply, Graph.edges_labelAll, Graph.edges_labelAll, H.edge]
  | put p selects value =>
      refine ⟨?_, fun n => ?_, fun e => ?_⟩
      · rw [apply, apply, Graph.size_putAll, Graph.size_putAll, H.size]
      · obtain ⟨hselects, hvalue⟩ := hr g h hg H n
        rw [apply, apply, Graph.entity_putAll, Graph.entity_putAll, H.entity, H.size, hvalue]
        simp only [hselects]
      · rw [apply, apply, Graph.edges_putAll, Graph.edges_putAll, H.edge]

/-- **A sequence of rules leaves graphs alike.** -/
theorem alike_applyAll {rules : List Rule} (hrules : ∀ r ∈ rules, r.OrderFree) (hg : g.Closed)
    (H : g.Alike h) : (applyAll rules g).Alike (applyAll rules h) := by
  induction rules generalizing g h with
  | nil => exact H
  | cons r rules ih =>
      have hr := hrules r List.mem_cons_self
      exact ih (fun r' hr' => hrules r' (List.mem_cons_of_mem _ hr')) (closed_applyAll hg [r])
        (hr.alike_apply hg H)

/-! ### Each rule -/

theorem orderFree_perClass {p : Property} {count : Graph → NodeId → Nat}
    (hcount : ∀ g h : Graph, g.Alike h → ∀ n, count h n = count g n) :
    (perClass p count).OrderFree := by
  intro g h _ H n
  refine ⟨?_, congrArg Value.ofCount (hcount g h H n)⟩
  simp only [H.idsWhere]

theorem orderFree_methodPoints : methodPoints.OrderFree :=
  orderFree_perClass fun _ _ H n => by rw [H.tally_memberNames]

theorem orderFree_methodVariants : methodVariants.OrderFree :=
  orderFree_perClass fun _ _ H n => by rw [H.tally_memberNames]

theorem orderFree_constructorPoints : constructorPoints.OrderFree :=
  orderFree_perClass fun _ _ H n => by rw [H.memberCount]

theorem orderFree_constructorVariants : constructorVariants.OrderFree :=
  orderFree_perClass fun _ _ H n => by rw [H.memberCount]

theorem orderFree_allMethods : allMethods.OrderFree :=
  orderFree_perClass fun _ _ H n => H.memberCount n _

theorem orderFree_publicMembers (p : Property) (kind : Label) :
    (publicMembers p kind).OrderFree :=
  orderFree_perClass fun _ _ H n => by rw [H.entity, H.memberCount]

theorem orderFree_typeVariants : typeVariants.OrderFree := by
  intro g h _ H n
  refine ⟨?_, congrArg Value.ofCount (H.variantCount n)⟩
  simp only [H.idsWhere]

theorem orderFree_compositions : compositions.OrderFree := by
  intro g h _ H n
  have hperm := H.perm_targets [.composing] n
  refine ⟨?_, congrArg Value.ofCount hperm.length_eq⟩
  simp only [List.mem_filter, List.mem_range, H.size, Bool.not_eq_true',
    List.isEmpty_eq_false_iff, ← List.length_pos_iff, hperm.length_eq]

theorem orderFree_inScope (l : Label) (c : Entity → Bool) : (inScope l c).OrderFree := by
  intro g h _ H n
  simp only [H.idsWhere]

theorem orderFree_variants : variants.OrderFree := by
  intro g h _ H n
  simp only [List.mem_map, H.mem_edgesOf]

theorem orderFree_compositionStrategies : compositionStrategies.OrderFree := by
  intro g h _ H n
  simp only [List.mem_map, List.mem_filter, H.mem_edgesOf, H.entity]

theorem orderFree_dense : dense.OrderFree := by
  intro g h _ H n
  simp only [List.mem_flatMap, H.mem_edgesOf]

/-- Crowds are counted without repetitions. -/
theorem orderFree_crowds (threshold : UInt64) : (crowds threshold).OrderFree := by
  intro g h _ H n
  have hcrowd : Hotspot.crowd h threshold.toNat = Hotspot.crowd g threshold.toNat := by
    funext point
    have hvariants : ∀ m,
        m ∈ ((h.edgesOf Hotspot.subtypingPattern).filter (·.source == point)).map (·.target) ↔
        m ∈ ((g.edgesOf Hotspot.subtypingPattern).filter (·.source == point)).map (·.target) := by
      intro m
      simp only [List.mem_map, List.mem_filter, H.mem_edgesOf]
    rw [Hotspot.crowd, Hotspot.crowd, Hotspot.distinctIds_eq_of_mem_iff hvariants]
  have hpoints : ∀ point, point ∈ (h.edgesOf Hotspot.subtypingPattern).map (·.source) ↔
      point ∈ (g.edgesOf Hotspot.subtypingPattern).map (·.source) := by
    intro point
    simp only [List.mem_map, H.mem_edgesOf]
  refine ⟨?_, rfl⟩
  simp only [Hotspot.crowdIds, Hotspot.distinctIds_eq_of_mem_iff hpoints, hcrowd, H.idsWhere]

/-- The nodes to be flagged are the same, whatever the order in which they are found. -/
theorem aggregated_of_alike {threshold : Nat} (hg : g.Closed) (H : g.Alike h) {n : NodeId}
    (hn : Hotspot.Aggregated h threshold n) : Hotspot.Aggregated g threshold n := by
  induction hn with
  | flagged hflag => exact .flagged (H.entity _ ▸ hflag)
  | group hv hlarge hmem =>
      rw [H.entity] at hv
      have hperm := H.perm_reachable hg .composing (Graph.lt_size_of_has hv)
      exact .group hv (hperm.length_eq ▸ hlarge) (hperm.mem_iff.mp hmem)
  | variant _ hinherits hvariant ih =>
      obtain ⟨r, hr, hstep⟩ := hinherits
      exact .variant ih ⟨r, hr, H.step.mp hstep⟩ (H.entity _ ▸ hvariant)

theorem orderFree_aggregations (threshold : Nat) : (aggregations threshold).OrderFree := by
  intro g h hg H n
  refine ⟨?_, rfl⟩
  simp only [List.mem_filter, List.mem_range, H.size, decide_eq_true_eq]
  exact and_congr_right fun _ =>
    ⟨aggregated_of_alike hg H, aggregated_of_alike (H.closed hg) H.symm⟩

theorem orderFree_hotspots : hotspots.OrderFree := by
  intro g h _ H n
  simp only [H.idsWhere]

/-- No rule of either detection looks at the order or the number of edges. -/
theorem orderFree_of_mem_rules (t : HotspotThresholds) :
    ∀ r ∈ Variation.rules ++ Hotspot.rules t, r.OrderFree := by
  simp only [Variation.rules, Hotspot.rules, List.cons_append, List.nil_append,
    List.forall_mem_cons]
  exact ⟨orderFree_methodPoints, orderFree_methodVariants, orderFree_constructorPoints,
    orderFree_constructorVariants, orderFree_typeVariants, orderFree_inScope _ _,
    orderFree_inScope _ _, orderFree_variants, orderFree_publicMembers _ _,
    orderFree_publicMembers _ _, orderFree_compositions, orderFree_allMethods,
    orderFree_compositionStrategies, orderFree_dense, orderFree_crowds _,
    orderFree_aggregations _, orderFree_hotspots, by simp⟩

end Rule

/-! ### Both detections -/

/-- **Detection sees edges as a set.** On two closed graphs that are alike, the detection of
variation points and variants followed by that of hotspots succeeds, for all thresholds, and leaves
graphs that are alike: their nodes have the same labels and properties. Their statistics are
equal, and sums that need more than 64 bits are taken in both or in neither. -/
theorem detection_alike {g h : Graph} (hg : g.Closed) (H : g.Alike h) (t : HotspotThresholds) :
    ∃ g' h' statistics,
      Yields (do Variation.detect; Hotspot.detect t) g () g' ∧
      Yields (do Variation.detect; Hotspot.detect t) h () h' ∧ g'.Alike h' ∧
      Yields Statistics.collect g' statistics g' ∧
      Yields Statistics.collect h' statistics h' ∧ (g'.SumsFit ↔ h'.SumsFit) := by
  have hdetect := Variation.applies_detect.append (Hotspot.applies_detect t)
  have halike := Rule.alike_applyAll (Rule.orderFree_of_mem_rules t) hg H
  refine ⟨_, _, _, hdetect hg, hdetect (H.closed hg), halike, Statistics.yields_collect _, ?_,
    halike.sumsFit, halike.symm.sumsFit⟩
  rw [← halike.statistics]
  exact Statistics.yields_collect _

/-- The knot with every edge twice, first in the opposite order. -/
def tangle : Graph :=
  { Hotspot.knot with
    edges := (Hotspot.knot.edges.toList.reverse ++ Hotspot.knot.edges.toList).toArray }

theorem detection_alike_tangle :
    Hotspot.knot.Closed ∧ Hotspot.knot.Alike tangle ∧ Hotspot.knot.edges ≠ tangle.edges ∧
    ∃ g' h' statistics,
      Yields (do Variation.detect; Hotspot.detect { variants := 1, aggregations := 2 })
        Hotspot.knot () g' ∧
      Yields (do Variation.detect; Hotspot.detect { variants := 1, aggregations := 2 })
        tangle () h' ∧ g'.Alike h' ∧
      Yields Statistics.collect g' statistics g' ∧
      Yields Statistics.collect h' statistics h' ∧ (g'.SumsFit ↔ h'.SumsFit) := by
  have hclosed : Hotspot.knot.Closed := by decide
  have halike : Hotspot.knot.Alike tangle := ⟨rfl, fun _ => rfl, fun e => by simp [tangle]⟩
  exact ⟨hclosed, halike, by decide, detection_alike hclosed halike _⟩

end Variability
