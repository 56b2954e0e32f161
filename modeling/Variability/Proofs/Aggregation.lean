import Variability.Variation.Hotspot
import Variability.Proofs.Detection
import Variability.Proofs.Reachable
import Mathlib.Data.Set.Card

/-!
# Aggregation hotspots as a least fixpoint

Flagging aggregations has two parts. The first flags the whole composition group of every variation
point with a large group. The second flags variants below flagged nodes, in rounds: a round reads
all inheritance edges, flags the targets that are due, and reads the edges again, until nothing is
due.

What comes out does not depend on the rounds. It is the least set of nodes that contains what was
flagged before and the large groups, and that contains with a node the variants below it
(`Hotspot.Aggregated`, as an inductive predicate). Every round keeps within this set, and the last
round leaves nothing due, so that all of it is flagged. There is a last round, also on cyclic
inheritance, because each round leaves fewer edges with a target that is not flagged.

## Main results

* `Hotspot.yields_spread`: the rounds end because nothing is due, and not because their number is
  used up.
* `Hotspot.yields_flagAggregations`: flagging aggregations flags the aggregated nodes and does
  nothing else.
* `Hotspot.flagAggregations_isLeast`: the flagged nodes are the least set with its closure rules.
-/

namespace Variability

open Session

/-- The size of a set that is listed without repetitions. -/
theorem ncard_eq_length {α : Type} {S : Set α} {l : List α} (hl : l.Nodup)
    (hmem : ∀ a, a ∈ S ↔ a ∈ l) : S.ncard = l.length := by
  classical
  have hset : S = (l.toFinset : Set α) := by
    ext a
    simp [hmem]
  rw [hset, Set.ncard_coe_finset, List.toFinset_card_of_nodup hl]

/-! ### Raising flags -/

namespace Graph

/-- The graph in which a flag of some nodes is up. -/
def raiseAll (g : Graph) (p : Property) (ids : List NodeId) : Graph :=
  g.putAll p (fun _ => .bool true) ids

theorem raiseAll_append (g : Graph) (p : Property) (ids ids' : List NodeId) :
    g.raiseAll p (ids ++ ids') = (g.raiseAll p ids).raiseAll p ids' :=
  List.foldl_append

/-- Raising a flag keeps all labels. -/
theorem agree_raiseAll (g : Graph) (p : Property) (ids : List NodeId) :
    g.Agree Trait.IsLabel (g.raiseAll p ids) :=
  Rule.agree_apply (.put p (fun _ => ids) fun _ _ => .bool true) not_false g

@[simp] theorem size_raiseAll (g : Graph) (p : Property) (ids : List NodeId) :
    (g.raiseAll p ids).size = g.size :=
  size_putAll ..

/-- After raising a flag, it is up at the nodes where it was up before and at the given ones. -/
theorem flag_raiseAll {g : Graph} {p : Property} {ids : List NodeId} {n : NodeId} :
    ((g.raiseAll p ids).entity n).flag p = true ↔
      (g.entity n).flag p = true ∨ (n ∈ ids ∧ n < g.size) := by
  rw [Entity.flag_eq_true_iff, Entity.flag_eq_true_iff, raiseAll, property?_putAll]
  by_cases h : n ∈ ids ∧ n < g.size
  · simp [h]
  · simp [h]

end Graph

namespace Hotspot

variable {g : Graph} {threshold : Nat}

/-- Raising a flag of each of some nodes that exist. -/
theorem yields_raiseEach {ids : List NodeId} (p : Property) (h : ∀ id ∈ ids, id < g.size) :
    Yields (ids.forM (raise p)) g () (g.raiseAll p ids) := by
  have hraise := yields_putEach ids id p (fun _ => .bool true) h
  rw [List.map_id] at hraise
  exact hraise

/-! ### The aggregated nodes -/

/-- The nodes to be flagged: those flagged before, the members of a large composition group of a
variation point, and the variants directly below such nodes. -/
inductive Aggregated (g : Graph) (threshold : Nat) : NodeId → Prop where
  | flagged {n : NodeId} : (g.entity n).flag .aggregation = true → Aggregated g threshold n
  | group {v n : NodeId} : (g.entity v).has .variationPoint = true →
      threshold ≤ (g.reachable .composing v).length → n ∈ g.reachable .composing v →
      Aggregated g threshold n
  | variant {s t : NodeId} : Aggregated g threshold s → g.Inherits s t →
      (g.entity t).has .variant = true → Aggregated g threshold t

/-- Paths of a closed graph stay in it. -/
theorem lt_of_mem_reachable (hg : g.Closed) {relation : Relation} {v n : NodeId}
    (hv : v < g.size) (h : n ∈ g.reachable relation v) : n < g.size := by
  induction (Graph.mem_reachable hg hv).mp h with
  | start => exact hv
  | step _ hstep _ => exact (hg.step hstep).2

/-- The composition group of a variation point, if it is large. -/
def largeGroup (g : Graph) (threshold : Nat) (v : NodeId) : List NodeId :=
  if (g.reachable .composing v).length < threshold then [] else g.reachable .composing v

/-- The members of the large groups, group after group. -/
def groupIds (g : Graph) (threshold : Nat) : List NodeId :=
  (g.idsWhere (·.has .variationPoint)).flatMap (largeGroup g threshold)

theorem mem_groupIds {n : NodeId} :
    n ∈ groupIds g threshold ↔ ∃ v, (g.entity v).has .variationPoint = true ∧
      threshold ≤ (g.reachable .composing v).length ∧ n ∈ g.reachable .composing v := by
  simp only [groupIds, List.mem_flatMap, Graph.mem_idsWhere, largeGroup]
  constructor
  · rintro ⟨v, ⟨-, hv⟩, hn⟩
    split at hn
    · exact absurd hn List.not_mem_nil
    · rename_i hlarge
      exact ⟨v, hv, Nat.le_of_not_lt hlarge, hn⟩
  · rintro ⟨v, hv, hlarge, hn⟩
    refine ⟨v, ⟨Graph.lt_size_of_has hv, hv⟩, ?_⟩
    rwa [if_neg (Nat.not_lt.mpr hlarge)]

/-- One pass of the first loop. Flags that are up already do not matter to it. -/
theorem yields_flagGroup (hg : g.Closed) {v : NodeId} (hv : v < g.size) (threshold : UInt64)
    {h : Graph} (hh : g.Agree Trait.IsLabel h) :
    Yields (do
        let group ← reachable v .composing
        if group.length < threshold.toNat then pure () else group.forM (raise .aggregation))
      h () (h.raiseAll .aggregation (largeGroup g threshold.toNat v)) := by
  have hgroup := yields_reachable (hh.size ▸ hv) .composing
  rw [hh.reachable] at hgroup
  refine hgroup.bind ?_
  unfold largeGroup
  split
  · exact Yields.pure _ _
  · refine yields_raiseEach _ fun m hm => ?_
    rw [hh.size]
    exact lt_of_mem_reachable hg hv hm

/-- The first part flags the large groups. -/
theorem yields_flagGroups (hg : g.Closed) (threshold : UInt64) :
    Yields (flagGroups threshold) g ()
      (g.raiseAll .aggregation (groupIds g threshold.toNat)) := by
  refine (yields_nodesLabelled g .variationPoint).bind ?_
  have hfold : g.raiseAll .aggregation (groupIds g threshold.toNat) =
      ((g.idsWhere (·.has .variationPoint)).map g.nodeAt).foldl
        (fun h n => h.raiseAll .aggregation (largeGroup g threshold.toNat n.id)) g := by
    rw [List.foldl_map, Graph.raiseAll, Graph.putAll, groupIds, List.foldl_flatMap]
    rfl
  rw [hfold]
  refine Yields.forM (g.Agree Trait.IsLabel) (fun n hn h hh => ?_) (Graph.Agree.refl _ g)
  obtain ⟨v, hv, rfl⟩ := List.mem_map.mp hn
  have hlt : v < g.size := (Graph.mem_idsWhere.mp hv).1
  exact ⟨yields_flagGroup hg hlt threshold hh, hh.trans (Graph.agree_raiseAll h _ _)⟩

/-! ### The rounds -/

/-- The inheritance edges from a flagged node to a variant that is not flagged. -/
def dueEdges (h : Graph) : List Edge :=
  (h.edgesOf inheritancePattern).filter fun e => isDue (h.hopAt e)

/-- The number of inheritance edges to a variant that is not flagged. -/
def waiting (h : Graph) : Nat :=
  (h.edgesOf inheritancePattern).countP fun e => !(h.entity e.target).flag .aggregation

/-- The inheritance edges to variants, and which of them are due. -/
theorem mem_dueEdges {h : Graph} {e : Edge} :
    e ∈ dueEdges h ↔ e ∈ h.edgesOf inheritancePattern ∧
      (h.entity e.source).flag .aggregation = true ∧
      (h.entity e.target).flag .aggregation = false := by
  simp [dueEdges, isDue, Graph.hopAt]

/-- The graph after one round. -/
def round (h : Graph) : Graph := h.raiseAll .aggregation ((dueEdges h).map (·.target))

/-- A round in which something is due leaves fewer edges that wait. -/
theorem waiting_round_lt {h : Graph} (hh : h.Closed) (hdue : dueEdges h ≠ []) :
    waiting (round h) < waiting h := by
  have hedges : (round h).edgesOf inheritancePattern = h.edgesOf inheritancePattern :=
    (Graph.agree_raiseAll h _ _).edgesOf fun _ _ => trivial
  have hstill : ∀ n, ((round h).entity n).flag .aggregation = false →
      (h.entity n).flag .aggregation = false := by
    intro n hn
    rw [← Bool.not_eq_true] at hn ⊢
    exact fun hup => hn (Graph.flag_raiseAll.mpr (Or.inl hup))
  -- Some edge waits before the round and not after it.
  obtain ⟨e, he⟩ := List.exists_mem_of_ne_nil _ hdue
  obtain ⟨hmem, -, hdown⟩ := mem_dueEdges.mp he
  have hup : ((round h).entity e.target).flag .aggregation = true :=
    Graph.flag_raiseAll.mpr
      (Or.inr ⟨List.mem_map_of_mem he, (hh.lt_of_mem_edgesOf hmem).2⟩)
  calc waiting (round h)
      = (h.edgesOf inheritancePattern).countP
          fun e => !((round h).entity e.target).flag .aggregation := by rw [waiting, hedges]
    _ = ((h.edgesOf inheritancePattern).filter
          fun e => !(h.entity e.target).flag .aggregation).countP
          fun e => !((round h).entity e.target).flag .aggregation := by
        rw [List.countP_filter]
        refine List.countP_congr fun e _ => ?_
        simpa using hstill e.target
    _ < ((h.edgesOf inheritancePattern).filter
          fun e => !(h.entity e.target).flag .aggregation).length :=
        List.countP_lt_length_iff.mpr
          ⟨e, List.mem_filter.mpr ⟨hmem, by simp [hdown]⟩, by simp [hup]⟩
    _ = waiting h := List.countP_eq_length_filter.symm

/-- The hops that a round finds due are those of the due edges. -/
theorem filter_isDue (h : Graph) :
    (h.hopsOf inheritancePattern).filter isDue = (dueEdges h).map h.hopAt :=
  List.filter_map

/-- One round of the loop flags the targets that are due. -/
theorem yields_round {h : Graph} (hh : h.Closed) :
    Yields (((dueEdges h).map h.hopAt).forM fun hop => raise .aggregation hop.target.id)
      h () (round h) := by
  have hraise := yields_putEach (g := h) ((dueEdges h).map h.hopAt) (·.target.id) .aggregation
    (fun _ => .bool true) ?_
  · rw [List.map_map] at hraise
    exact hraise
  · intro hop hhop
    obtain ⟨e, he, rfl⟩ := List.mem_map.mp hhop
    exact (hh.lt_of_mem_edgesOf (mem_dueEdges.mp he).1).2

/-- **The rounds come to an end.** With as many rounds as there are waiting edges, the loop stops
because nothing is due. What every round keeps holds in the end. -/
theorem yields_spread {I : Graph → Prop} (hround : ∀ h, I h → I (round h)) {rounds : Nat}
    {h : Graph} (hh : h.Closed) (hI : I h) (hwaiting : waiting h ≤ rounds) :
    ∃ h', Yields (spread rounds (h.hopsOf inheritancePattern)) h () h' ∧ I h' ∧
      dueEdges h' = [] := by
  induction rounds generalizing h with
  | zero =>
      have hdue : dueEdges h = [] := by
        by_contra hdue
        have hless := waiting_round_lt hh hdue
        omega
      rw [spread, filter_isDue, hdue]
      exact ⟨h, Yields.pure _ _, hI, hdue⟩
  | succ rounds ih =>
      rw [spread, filter_isDue]
      by_cases hdue : dueEdges h = []
      · rw [hdue]
        exact ⟨h, Yields.pure _ _, hI, hdue⟩
      · have hclosed : (round h).Closed := (Graph.agree_raiseAll h _ _).closed hh
        have hless := waiting_round_lt hh hdue
        obtain ⟨h', hrest, hI', hdue'⟩ := ih hclosed (hround h hI) (by omega)
        refine ⟨h', ?_, hI', hdue'⟩
        rw [if_neg (by simpa using hdue)]
        exact (yields_round hh).bind ((yields_runQuery hclosed _).bind hrest)

/-! ### The whole of it -/

/-- The graph `h` is `g` with flags raised at aggregated nodes, among them all large groups. -/
def Within (g : Graph) (threshold : Nat) (h : Graph) : Prop :=
  ∃ ids, (∀ n ∈ groupIds g threshold, n ∈ ids) ∧ (∀ n ∈ ids, Aggregated g threshold n) ∧
    h = g.raiseAll .aggregation ids

/-- The edges that the rounds look at lead to variants. -/
theorem mem_inheritanceEdges {e : Edge} :
    e ∈ g.edgesOf inheritancePattern ↔ g.Step e.relation e.source e.target ∧
      e.relation ∈ Relation.inheritance ∧ (g.entity e.target).has .variant = true := by
  rw [Graph.mem_edgesOf, inheritancePattern]
  simp [Relation.isAmong, Relation.inheritance]

/-- A round flags aggregated nodes only. -/
theorem within_round {h : Graph} (H : Within g threshold h) : Within g threshold (round h) := by
  obtain ⟨ids, hgroups, hids, rfl⟩ := H
  refine ⟨ids ++ (dueEdges (g.raiseAll .aggregation ids)).map (·.target), ?_, ?_,
    (Graph.raiseAll_append ..).symm⟩
  · intro n hn
    exact List.mem_append_left _ (hgroups n hn)
  · intro n hn
    rcases List.mem_append.mp hn with hn | hn
    · exact hids n hn
    · obtain ⟨e, he, rfl⟩ := List.mem_map.mp hn
      obtain ⟨hmem, hsource, -⟩ := mem_dueEdges.mp he
      rw [(Graph.agree_raiseAll g _ _).edgesOf fun _ _ => trivial] at hmem
      obtain ⟨hstep, hr, hvariant⟩ := mem_inheritanceEdges.mp hmem
      have haggregated : Aggregated g threshold e.source := by
        rcases Graph.flag_raiseAll.mp hsource with hflag | ⟨hin, -⟩
        · exact .flagged hflag
        · exact hids _ hin
      exact .variant haggregated ⟨e.relation, hr, hstep⟩ hvariant

/-- Where nothing is due, every aggregated node is flagged. -/
theorem flag_of_aggregated (hg : g.Closed) {h : Graph} (H : Within g threshold h)
    (hdue : dueEdges h = []) {n : NodeId} (hn : Aggregated g threshold n) :
    (h.entity n).flag .aggregation = true := by
  obtain ⟨ids, hgroups, -, rfl⟩ := H
  induction hn with
  | flagged hflag => exact Graph.flag_raiseAll.mpr (Or.inl hflag)
  | group hv hlarge hmem =>
      have hlt := lt_of_mem_reachable hg (Graph.lt_size_of_has hv) hmem
      have hin := hgroups _ (mem_groupIds.mpr ⟨_, hv, hlarge, hmem⟩)
      exact Graph.flag_raiseAll.mpr (Or.inr ⟨hin, hlt⟩)
  | @variant s t _ hinherits hvariant ih =>
      by_contra hflag
      obtain ⟨r, hr, hstep⟩ := hinherits
      have hedge : (⟨s, r, t⟩ : Edge) ∈ g.edgesOf inheritancePattern :=
        mem_inheritanceEdges.mpr ⟨hstep, hr, hvariant⟩
      rw [← (Graph.agree_raiseAll g .aggregation ids).edgesOf fun _ _ => trivial] at hedge
      have he := mem_dueEdges.mpr ⟨hedge, ih, Bool.eq_false_iff.mpr hflag⟩
      rw [hdue] at he
      exact List.not_mem_nil he

/-- Aggregated nodes of a closed graph exist. -/
theorem lt_of_aggregated (hg : g.Closed) {n : NodeId} (hn : Aggregated g threshold n) :
    n < g.size := by
  cases hn with
  | flagged hflag => exact Graph.lt_size_of_property? (Entity.flag_eq_true_iff.mp hflag)
  | group hv _ hmem => exact lt_of_mem_reachable hg (Graph.lt_size_of_has hv) hmem
  | variant _ hinherits _ =>
      obtain ⟨r, -, hstep⟩ := hinherits
      exact (hg.step hstep).2

end Hotspot

open Classical in
/-- The rule that flags the aggregated nodes. -/
noncomputable def Rule.aggregations (threshold : Nat) : Rule :=
  .put .aggregation
    (fun g => (List.range g.size).filter fun n => decide (Hotspot.Aggregated g threshold n))
    fun _ _ => .bool true

namespace Hotspot

variable {g : Graph} {threshold : Nat}

open Classical in
/-- The entity of a node when the aggregated nodes are flagged. -/
theorem entity_aggregations (hg : g.Closed) (threshold : Nat) (n : NodeId) :
    ((Rule.aggregations threshold).apply g).entity n =
      if Aggregated g threshold n then (g.entity n).put .aggregation (.bool true)
      else g.entity n := by
  rw [Rule.aggregations, Rule.apply, Graph.entity_putAll]
  by_cases hn : Aggregated g threshold n
  · simp [hn, lt_of_aggregated hg hn]
  · simp [hn]

/-- When the aggregated nodes are flagged, they are all the flagged ones. -/
theorem flag_aggregations (hg : g.Closed) (threshold : Nat) (n : NodeId) :
    (((Rule.aggregations threshold).apply g).entity n).flag .aggregation = true ↔
      Aggregated g threshold n := by
  rw [entity_aggregations hg]
  split
  · rename_i hn
    simp [Entity.flag_eq_true_iff, hn]
  · rename_i hn
    exact ⟨.flagged, fun h => absurd h hn⟩

/-- Flags within the aggregated nodes of which none is due are those of the rule. -/
theorem eq_apply_aggregations (hg : g.Closed) {h : Graph} (H : Within g threshold h)
    (hdue : dueEdges h = []) : h = (Rule.aggregations threshold).apply g := by
  have hall : ∀ n, Aggregated g threshold n → (h.entity n).flag .aggregation = true :=
    fun n hn => flag_of_aggregated hg H hdue hn
  obtain ⟨ids, -, hids, rfl⟩ := H
  refine Graph.ext_entity (by simp) (by simp [Graph.raiseAll, Rule.aggregations, Rule.apply]) ?_
  intro n
  rw [entity_aggregations hg, Graph.raiseAll, Graph.entity_putAll]
  by_cases hn : n ∈ ids ∧ n < g.size
  · rw [if_pos hn, if_pos (hids n hn.1)]
  · rw [if_neg hn]
    split
    · -- An aggregated node that was not among them was flagged before.
      rename_i hagg
      rcases Graph.flag_raiseAll.mp (hall n hagg) with hflag | hin
      · exact (Entity.put_eq_self (Entity.flag_eq_true_iff.mp hflag)).symm
      · exact absurd hin hn
    · rfl

/-- **Flagging aggregations** succeeds on every closed graph, flags the aggregated nodes, and does
nothing else. -/
theorem yields_flagAggregations (hg : g.Closed) (threshold : UInt64) :
    Yields (flagAggregations threshold) g () ((Rule.aggregations threshold.toNat).apply g) := by
  have hstart : Within g threshold.toNat
      (g.raiseAll .aggregation (groupIds g threshold.toNat)) := by
    refine ⟨_, fun n hn => hn, fun n hn => ?_, rfl⟩
    obtain ⟨v, hv, hlarge, hmem⟩ := mem_groupIds.mp hn
    exact .group hv hlarge hmem
  refine (yields_flagGroups hg threshold).bind ?_
  have hclosed := (Graph.agree_raiseAll g .aggregation (groupIds g threshold.toNat)).closed hg
  generalize g.raiseAll .aggregation (groupIds g threshold.toNat) = flagged at hstart hclosed
  -- No more edges wait than there are hops.
  have hwaiting : waiting flagged ≤ (flagged.hopsOf inheritancePattern).length := by
    rw [Graph.hopsOf, List.length_map]
    exact List.countP_le_length
  obtain ⟨h, hspread, hwithin, hdue⟩ := yields_spread (I := Within g threshold.toNat)
    (fun _ => within_round) hclosed hstart hwaiting
  rw [← eq_apply_aggregations hg hwithin hdue]
  exact (yields_runQuery hclosed _).bind hspread

/-! ### The least set -/

/-- A set of nodes that contains the flagged ones and the large composition groups of variation
points, and with a node all variants directly below it. -/
structure IsAggregation (g : Graph) (threshold : Nat) (A : Set NodeId) : Prop where
  flagged : ∀ n, (g.entity n).flag .aggregation = true → n ∈ A
  group : ∀ v, (g.entity v).has .variationPoint = true →
    threshold ≤ {n | g.Reaches .composing v n}.ncard → ∀ n, g.Reaches .composing v n → n ∈ A
  variant : ∀ s ∈ A, ∀ t, g.Inherits s t → (g.entity t).has .variant = true → t ∈ A

/-- The number of nodes that the search finds is the number of nodes that paths lead to. -/
theorem ncard_reaches (hg : g.Closed) {relation : Relation} {v : NodeId} (hv : v < g.size) :
    {n | g.Reaches relation v n}.ncard = (g.reachable relation v).length :=
  ncard_eq_length (Graph.nodup_reachable g relation v) fun _ => (Graph.mem_reachable hg hv).symm

/-- The aggregated nodes are the least aggregation. -/
theorem isLeast_aggregated (hg : g.Closed) (threshold : Nat) :
    IsLeast {A | IsAggregation g threshold A} {n | Aggregated g threshold n} := by
  constructor
  · refine ⟨fun n => .flagged, fun v hv hlarge n hn => ?_, fun s hs t => .variant hs⟩
    have hlt := Graph.lt_size_of_has hv
    rw [ncard_reaches hg hlt] at hlarge
    exact .group hv hlarge ((Graph.mem_reachable hg hlt).mpr hn)
  · intro A hA n hn
    induction hn with
    | flagged hflag => exact hA.flagged _ hflag
    | group hv hlarge hmem =>
        have hlt := Graph.lt_size_of_has hv
        rw [← ncard_reaches hg hlt] at hlarge
        exact hA.group _ hv hlarge _ ((Graph.mem_reachable hg hlt).mp hmem)
    | variant _ hinherits hvariant ih => exact hA.variant _ ih _ hinherits hvariant

/-- **Aggregation hotspots are a least fixpoint.** Flagging aggregations ends, on every closed graph
and for every threshold. The nodes flagged afterwards are the least set that contains those flagged
before, the large composition groups of variation points, and with a node the variants below it.
Only their flags change. -/
theorem flagAggregations_isLeast (hg : g.Closed) (threshold : UInt64) :
    ∃ h, Yields (flagAggregations threshold) g () h ∧
      IsLeast {A | IsAggregation g threshold.toNat A}
        {n | (h.entity n).flag .aggregation = true} ∧
      h.size = g.size ∧ h.edges = g.edges ∧
      ∀ n, h.entity n = if (h.entity n).flag .aggregation = true
        then (g.entity n).put .aggregation (.bool true) else g.entity n := by
  have hframe : g.Agree (fun _ => False) ((Rule.aggregations threshold.toNat).apply g) :=
    Rule.agree_apply _ not_false g
  refine ⟨_, yields_flagAggregations hg threshold, ?_, hframe.size, hframe.edges, fun n => ?_⟩
  · simp only [flag_aggregations hg]
    exact isLeast_aggregated hg threshold.toNat
  · have hflag := flag_aggregations hg threshold.toNat n
    rw [entity_aggregations hg] at hflag ⊢
    by_cases hn : Aggregated g threshold.toNat n
    · rw [if_pos hn] at hflag ⊢
      rw [if_pos (hflag.mpr hn)]
    · rw [if_neg hn] at hflag ⊢
      rw [if_neg fun h => hn (hflag.mp h)]

/-- A variation point composed of a class that is composed of it, with a variant below it, and a
second variant with which the first is in a cycle of inheritance. -/
def knot : Graph :=
  ((((((((Graph.empty.addNode "Part" [.interfaceType, .variationPoint]).addNode "Whole"
    [.classType]).addNode "Leaf" [.classType, .variant]).addNode "Bud" [.classType,
    .variant]).addEdge 0 .composing 1).addEdge 1 .composing 0).addEdge 0 .implementing 2).addEdge
    2 .extending 3).addEdge 3 .extending 2

theorem flagAggregations_isLeast_knot : knot.Closed ∧
    ∃ h, Yields (flagAggregations 2) knot () h ∧
      IsLeast {A | IsAggregation knot 2 A} {n | (h.entity n).flag .aggregation = true} ∧
      h.size = knot.size ∧ h.edges = knot.edges ∧
      ∀ n, h.entity n = if (h.entity n).flag .aggregation = true
        then (knot.entity n).put .aggregation (.bool true) else knot.entity n := by
  have hclosed : knot.Closed := by decide
  exact ⟨hclosed, flagAggregations_isLeast hclosed 2⟩

end Hotspot

end Variability
