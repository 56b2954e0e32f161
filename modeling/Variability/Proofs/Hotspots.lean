import Variability.Proofs.Aggregation

/-!
# Hotspot detection as a sequence of rules

Like the detection of variation points and variants, the detection of hotspots applies rules: one
sets the flag of crowded variation points and heavily overloaded classes, one sets the flag of
aggregations, and the last turns both flags into a label. The first two do not read what the other
writes. Only the rule for aggregations reads the flag that it sets itself.

## Main results

* `Hotspot.applies_detect`: hotspot detection applies the rules, and does not fail.
* `Hotspot.agree_detected`: it changes two flags and one label.
-/

namespace Variability

open Session

namespace Hotspot

variable {g : Graph}

/-! ### Distinct numbers -/

theorem mem_insertId {id n : NodeId} {ids : List NodeId} :
    n ∈ insertId id ids ↔ n = id ∨ n ∈ ids := by
  induction ids with
  | nil => simp [insertId]
  | cons x xs ih =>
      rw [insertId]
      split
      · exact List.mem_cons
      · split
        · rename_i hx
          simp [hx]
        · simp only [List.mem_cons, ih]
          tauto

/-- Sorting out repetitions loses no number and adds none. -/
theorem mem_distinctIds {ids : List NodeId} {n : NodeId} : n ∈ distinctIds ids ↔ n ∈ ids := by
  have hfold : ∀ acc, n ∈ ids.foldl (fun acc id => insertId id acc) acc ↔ n ∈ ids ∨ n ∈ acc := by
    induction ids with
    | nil => simp
    | cons id ids ih =>
        intro acc
        rw [List.foldl_cons, ih, mem_insertId, List.mem_cons]
        tauto
  rw [distinctIds, hfold]
  simp

/-! ### Crowded variation points -/

/-- A variation point with the variants among its successors, if there are enough of them. -/
def crowd (g : Graph) (threshold : Nat) (point : NodeId) : List NodeId :=
  let variants :=
    distinctIds (((g.edgesOf subtypingPattern).filter (·.source == point)).map (·.target))
  if variants.length < threshold then [] else point :: variants

/-- The crowded variation points and their variants. -/
def crowdIds (g : Graph) (threshold : Nat) : List NodeId :=
  (distinctIds ((g.edgesOf subtypingPattern).map (·.source))).flatMap (crowd g threshold)

/-- The targets of hops are those of their edges. -/
theorem targetsFrom_hopsOf (g : Graph) (point : NodeId) :
    targetsFrom (g.hopsOf subtypingPattern) point =
      distinctIds (((g.edgesOf subtypingPattern).filter (·.source == point)).map (·.target)) := by
  rw [targetsFrom, Graph.hopsOf, List.filter_map, List.map_map]
  rfl

/-- Flagging one variation point and its variants. -/
theorem yields_flagCrowd (hg : g.Closed) {point : NodeId} (hpoint : point < g.size)
    (threshold : UInt64) {h : Graph} (hsize : h.size = g.size) :
    Yields (if (targetsFrom (g.hopsOf subtypingPattern) point).length < threshold.toNat
        then pure ()
        else do
          raise .hotspot point
          (targetsFrom (g.hopsOf subtypingPattern) point).forM (raise .hotspot))
      h () (h.raiseAll .hotspot (crowd g threshold.toNat point)) := by
  rw [targetsFrom_hopsOf, crowd]
  split
  · exact Yields.pure _ _
  · refine (yields_setProperty (hsize ▸ hpoint) _ _).bind (yields_raiseEach _ fun n hn => ?_)
    obtain ⟨e, he, rfl⟩ := List.mem_map.mp (mem_distinctIds.mp hn)
    rw [Graph.size_put, hsize]
    exact (hg.lt_of_mem_edgesOf (List.mem_filter.mp he).1).2

/-- Flagging the crowded variation points and their variants. -/
theorem yields_flagSubtyping (hg : g.Closed) (threshold : UInt64) :
    Yields (flagSubtyping threshold) g ()
      (g.raiseAll .hotspot (crowdIds g threshold.toNat)) := by
  refine (yields_runQuery hg _).bind ?_
  have hsources : (g.hopsOf subtypingPattern).map (·.source.id) =
      (g.edgesOf subtypingPattern).map (·.source) := by
    rw [Graph.hopsOf, List.map_map]
    rfl
  have hfold : g.raiseAll .hotspot (crowdIds g threshold.toNat) =
      (distinctIds ((g.edgesOf subtypingPattern).map (·.source))).foldl
        (fun h point => h.raiseAll .hotspot (crowd g threshold.toNat point)) g := by
    rw [Graph.raiseAll, Graph.putAll, crowdIds, List.foldl_flatMap]
    rfl
  rw [hsources, hfold]
  refine Yields.forM (fun h => h.size = g.size) (fun point hpoint h hsize => ?_) rfl
  obtain ⟨e, he, rfl⟩ := List.mem_map.mp (mem_distinctIds.mp hpoint)
  refine ⟨yields_flagCrowd hg (hg.lt_of_mem_edgesOf he).1 threshold hsize, ?_⟩
  rw [Graph.size_raiseAll, hsize]

/-- Flagging the classes with many overloads. -/
theorem yields_flagOverloading (threshold : UInt64) :
    Yields (flagOverloading threshold) g ()
      (g.raiseAll .hotspot (g.idsWhere (hasManyOverloads threshold))) := by
  refine yields_nodes.bind ?_
  rw [nodes_forM_ite g (hasManyOverloads threshold) (raise .hotspot)]
  have hraise := yields_putEach (g := g)
    ((g.idsWhere (hasManyOverloads threshold)).map g.nodeAt) (·.id) .hotspot
    (fun _ => .bool true) ?_
  · rw [Graph.map_id_nodeAt] at hraise
    exact hraise
  · intro n hn
    obtain ⟨id, hid, rfl⟩ := List.mem_map.mp hn
    exact (Graph.mem_idsWhere.mp hid).1

end Hotspot

/-! ### The rules -/

/-- The traits that hotspot detection does not write. -/
def Trait.IsCold (t : Trait) : Prop :=
  t ≠ .property .hotspot ∧ t ≠ .property .aggregation ∧ t ≠ .label .hotspot

instance : DecidablePred Trait.IsCold := fun t =>
  inferInstanceAs
    (Decidable (t ≠ .property .hotspot ∧ t ≠ .property .aggregation ∧ t ≠ .label .hotspot))

/-- What is given has nothing to do with hotspots. -/
theorem Trait.isCold_of_isGiven : ∀ t : Trait, t.IsGiven → t.IsCold
  | .label l, h => by
      refine ⟨by simp, by simp, fun heq => ?_⟩
      obtain rfl : l = .hotspot := by simpa using heq
      exact absurd h (by decide)
  | .property _, h => h.elim

/-- Graphs that agree on two counts have the same nodes with many overloads. -/
theorem Graph.Agree.manyOverloads {S : Trait → Prop} {g h : Graph} (H : g.Agree S h)
    (hmethods : S (.property .methodVariants))
    (hconstructors : S (.property .constructorVariants)) (threshold : UInt64) :
    h.idsWhere (Hotspot.hasManyOverloads threshold) =
      g.idsWhere (Hotspot.hasManyOverloads threshold) := by
  refine H.idsWhere fun id => ?_
  unfold Hotspot.hasManyOverloads Entity.int?
  rw [H.property? hmethods, H.property? hconstructors]

namespace Rule

/-- The rule that flags crowded variation points, their variants, and heavily overloaded classes. -/
def crowds (threshold : UInt64) : Rule :=
  put .hotspot
    (fun g => Hotspot.crowdIds g threshold.toNat ++
      g.idsWhere (Hotspot.hasManyOverloads threshold))
    fun _ _ => .bool true

/-- The rule that labels the flagged nodes. -/
def hotspots : Rule :=
  mark .hotspot fun g => g.idsWhere fun e => e.flag .hotspot || e.flag .aggregation

/-- What is crowded or overloaded does not depend on flags. -/
theorem reads_crowds (threshold : UInt64) : (crowds threshold).Reads Trait.IsCold := by
  intro g h H
  refine ⟨?_, fun _ => rfl⟩
  have hedges : h.edgesOf Hotspot.subtypingPattern = g.edgesOf Hotspot.subtypingPattern :=
    H.edgesOf (by decide)
  have hcrowds : Hotspot.crowdIds h threshold.toNat = Hotspot.crowdIds g threshold.toNat := by
    unfold Hotspot.crowdIds Hotspot.crowd
    rw [hedges]
  exact congrArg₂ (· ++ ·) hcrowds (H.manyOverloads (by decide) (by decide) threshold)

/-- The label depends on the two flags. -/
theorem reads_hotspots :
    hotspots.Reads fun t => t = .property .hotspot ∨ t = .property .aggregation := by
  intro g h H
  refine H.idsWhere fun id => ?_
  unfold Entity.flag
  rw [H.property? (Or.inl rfl), H.property? (Or.inr rfl)]

end Rule

namespace Hotspot

variable {g : Graph}

/-- The rules of hotspot detection, in their order. -/
noncomputable def rules (t : HotspotThresholds) : List Rule :=
  [.crowds t.variants, .aggregations t.aggregations.toNat, .hotspots]

/-- The two flagging loops over variation points and classes apply one rule: the flags that the
first sets do not matter to the second. -/
theorem apply_crowds (g : Graph) (threshold : UInt64) :
    (Rule.crowds threshold).apply g =
      (g.raiseAll .hotspot (crowdIds g threshold.toNat)).raiseAll .hotspot
        ((g.raiseAll .hotspot (crowdIds g threshold.toNat)).idsWhere
          (hasManyOverloads threshold)) := by
  have H : g.Agree (· ≠ .property .hotspot)
      (g.raiseAll .hotspot (crowdIds g threshold.toNat)) :=
    Rule.agree_apply (.put .hotspot (fun g => crowdIds g threshold.toNat) fun _ _ => .bool true)
      (fun h => h rfl) g
  rw [H.manyOverloads (by decide) (by decide), ← Graph.raiseAll_append]
  rfl

/-- **Hotspot detection applies its rules.** On a closed graph every step succeeds, and the graph
that is left is that of the rules applied in turn. -/
theorem applies_detect (t : HotspotThresholds) : Applies (detect t) (rules t) := by
  intro g hg
  rw [rules, Rule.applyAll_cons, apply_crowds]
  refine (yields_flagSubtyping hg t.variants).bind ((yields_flagOverloading t.variants).bind ?_)
  rw [← apply_crowds]
  have hclosed : ((Rule.crowds t.variants).apply g).Closed :=
    Rule.closed_applyAll hg [.crowds t.variants]
  have hrest : Applies (do flagAggregations t.aggregations; label)
      [.aggregations t.aggregations.toNat, .hotspots] :=
    .cons (fun _ hg => yields_flagAggregations hg t.aggregations)
      (.single fun _ _ => yields_labelWhere .hotspot fun e =>
        e.flag .hotspot || e.flag .aggregation)
  exact hrest hclosed

/-- No rule writes what is not about hotspots. -/
theorem not_isCold_of_mem_rules (t : HotspotThresholds) : ∀ r ∈ rules t, ¬ r.trait.IsCold := by
  simp [rules, Rule.crowds, Rule.aggregations, Rule.hotspots, Rule.trait, Trait.IsCold]

/-- Each trait is written by one rule. -/
theorem nodup_traits (t : HotspotThresholds) : ((rules t).map Rule.trait).Nodup := by
  simp [rules, Rule.crowds, Rule.aggregations, Rule.hotspots, Rule.trait]

/-- Hotspot detection changes two flags and one label. -/
theorem agree_detected (t : HotspotThresholds) (g : Graph) :
    g.Agree Trait.IsCold (Rule.applyAll (rules t) g) :=
  Rule.agree_applyAll (not_isCold_of_mem_rules t) g

end Hotspot

end Variability
