import Variability.Config.Basic
import Variability.Proofs.Idempotence
import Variability.Proofs.Numbers

/-!
# Hotspots under higher thresholds

A node becomes a hotspot for one of several reasons, and the thresholds stand in three of them: the
variants of a crowded variation point, the overloads of a class, and the size of a composition
group. Two of these numbers are compared as they are, so a higher threshold is met by fewer nodes.
The threshold for overloads is compared with a sum of 64 bits, as a signed number. From `2 ^ 63` on
it is read as a negative one, which every class meets, also a class without overloads.

So raising the thresholds adds no hotspots as long as the threshold does not cross `2 ^ 63`. Where
it does, every class becomes a hotspot, and the nodes that are added are those whose sum was too
small before.

## Main results

* `Hotspot.has_hotspot_iff`: the reasons for which a node is a hotspot after detection.
* `Hotspot.IsHot.of_le`: a reason that a higher threshold gives is one that a lower threshold gives,
  or the higher one is read as a negative number.
* `Hotspot.detect_hotspot_of_le`: raising thresholds, over a whole detection.
-/

namespace Variability

open Session

namespace Hotspot

variable {g : Graph}

/-! ### Why a node is a hotspot -/

/-- The reasons for which a node is a hotspot when hotspots have been detected in `g`. -/
inductive IsHot (g : Graph) (t : HotspotThresholds) (n : NodeId) : Prop where
  | labelled : (g.entity n).has .hotspot = true → IsHot g t n
  | flagged : (g.entity n).flag .hotspot = true → IsHot g t n
  | crowded : n ∈ crowdIds g t.variants.toNat → n < g.size → IsHot g t n
  | overloaded : hasManyOverloads t.variants (g.entity n) = true → IsHot g t n
  | aggregated : Aggregated g t.aggregations.toNat n → IsHot g t n

/-- The nodes with many overloads exist. -/
theorem lt_of_hasManyOverloads {threshold : UInt64} {n : NodeId}
    (h : hasManyOverloads threshold (g.entity n) = true) : n < g.size := by
  unfold hasManyOverloads at h
  split at h
  · rename_i hmethods _
    obtain ⟨v, hv, -⟩ := Option.bind_eq_some_iff.mp hmethods
    exact Graph.lt_size_of_property? hv
  · exact absurd h Bool.false_ne_true

/-- The flag for hotspots when crowds and overloads have been flagged. -/
theorem flag_crowds {t : HotspotThresholds} {n : NodeId} :
    (((Rule.crowds t.variants).apply g).entity n).flag .hotspot = true ↔
      (g.entity n).flag .hotspot = true ∨ (n ∈ crowdIds g t.variants.toNat ∧ n < g.size) ∨
        hasManyOverloads t.variants (g.entity n) = true := by
  have hraise : (Rule.crowds t.variants).apply g = g.raiseAll .hotspot
      (crowdIds g t.variants.toNat ++ g.idsWhere (hasManyOverloads t.variants)) := rfl
  rw [hraise, Graph.flag_raiseAll, List.mem_append, Graph.mem_idsWhere]
  refine or_congr_right ?_
  constructor
  · rintro ⟨hcrowd | ⟨-, hmany⟩, hlt⟩
    · exact Or.inl ⟨hcrowd, hlt⟩
    · exact Or.inr hmany
  · rintro (⟨hcrowd, hlt⟩ | hmany)
    · exact ⟨Or.inl hcrowd, hlt⟩
    · exact ⟨Or.inr ⟨lt_of_hasManyOverloads hmany, hmany⟩, lt_of_hasManyOverloads hmany⟩

/-- Flagging crowds and overloads does not matter to aggregation. -/
theorem aggregated_crowds {threshold : UInt64} {size : Nat} {n : NodeId} :
    Aggregated ((Rule.crowds threshold).apply g) size n ↔ Aggregated g size n := by
  have H : g.Agree (· ≠ .property .hotspot) ((Rule.crowds threshold).apply g) :=
    Rule.agree_apply _ (fun h => h rfl) g
  have hflag : ∀ m, (((Rule.crowds threshold).apply g).entity m).flag .aggregation =
      (g.entity m).flag .aggregation := H.flag (by decide)
  constructor
  · intro hn
    exact hn.of_agree H (by decide) (by decide) fun m hm => .flagged (hflag m ▸ hm)
  · intro hn
    exact hn.of_agree H.symm (by decide) (by decide) fun m hm => .flagged (hflag m ▸ hm)

/-- **The hotspots after detection.** A node has the label for hotspots when it had it or the flag
before, when it belongs to a crowd, when it has many overloads, or when it is aggregated. -/
theorem has_hotspot_iff (hg : g.Closed) (t : HotspotThresholds) (n : NodeId) :
    ((Rule.applyAll (rules t) g).entity n).has .hotspot = true ↔ IsHot g t n := by
  have hclosed : ((Rule.crowds t.variants).apply g).Closed :=
    Rule.closed_applyAll hg [.crowds t.variants]
  have hmark : (rules t)[2]? = some (.mark .hotspot fun g =>
      g.idsWhere fun e => e.flag .hotspot || e.flag .aggregation) := rfl
  have hturn : Rule.applyAll ((rules t).take 2) g =
      (Rule.aggregations t.aggregations.toNat).apply ((Rule.crowds t.variants).apply g) := rfl
  -- The rule for aggregations leaves the other flag alone.
  have hother := Rule.agree_apply (S := (· = .property .hotspot))
    (Rule.aggregations t.aggregations.toNat) (by simp [Rule.aggregations, Rule.trait])
    ((Rule.crowds t.variants).apply g)
  rw [Rule.has_applyAll_mark (nodup_traits t) hmark, hturn, Graph.mem_idsWhere, Bool.or_eq_true,
    hother.flag rfl, flag_crowds, flag_aggregations hclosed, aggregated_crowds]
  have hlt : IsHot g t n → n < g.size := by
    rintro (hlabel | hflag | ⟨-, hlt⟩ | hmany | hagg)
    · exact Graph.lt_size_of_has hlabel
    · exact Graph.lt_size_of_property? (Entity.flag_eq_true_iff.mp hflag)
    · exact hlt
    · exact lt_of_hasManyOverloads hmany
    · exact lt_of_aggregated hg hagg
  constructor
  · rintro (hlabel | ⟨⟨-, (hflag | ⟨hcrowd, hlt⟩ | hmany) | hagg⟩, -⟩)
    · exact .labelled hlabel
    · exact .flagged hflag
    · exact .crowded hcrowd hlt
    · exact .overloaded hmany
    · exact .aggregated hagg
  · intro hn
    have hsize := hlt hn
    have hsize' : n < ((Rule.aggregations t.aggregations.toNat).apply
        ((Rule.crowds t.variants).apply g)).size := by simpa using hsize
    obtain hlabel | hflag | ⟨hcrowd, -⟩ | hmany | hagg := hn
    · exact Or.inl hlabel
    · exact Or.inr ⟨⟨hsize', Or.inl (Or.inl hflag)⟩, hsize⟩
    · exact Or.inr ⟨⟨hsize', Or.inl (Or.inr (Or.inl ⟨hcrowd, hsize⟩))⟩, hsize⟩
    · exact Or.inr ⟨⟨hsize', Or.inl (Or.inr (Or.inr hmany))⟩, hsize⟩
    · exact Or.inr ⟨⟨hsize', Or.inr hagg⟩, hsize⟩

/-! ### Higher thresholds -/

/-- A crowd of many variants is a crowd of fewer. -/
theorem mem_crowd_of_le {low high : Nat} (h : low ≤ high) {point n : NodeId}
    (hn : n ∈ crowd g high point) : n ∈ crowd g low point := by
  unfold crowd at hn ⊢
  dsimp only at hn ⊢
  split at hn
  · exact absurd hn List.not_mem_nil
  · rename_i hmany
    rwa [if_neg (by omega)]

/-- The crowds of a higher threshold are among those of a lower one. -/
theorem mem_crowdIds_of_le {low high : Nat} (h : low ≤ high) {n : NodeId}
    (hn : n ∈ crowdIds g high) : n ∈ crowdIds g low := by
  obtain ⟨point, hpoint, hcrowd⟩ := List.mem_flatMap.mp hn
  exact List.mem_flatMap.mpr ⟨point, hpoint, mem_crowd_of_le h hcrowd⟩

/-- What is aggregated with large groups is so with smaller ones. -/
theorem Aggregated.of_le {low high : Nat} (h : low ≤ high) {n : NodeId}
    (hn : Aggregated g high n) : Aggregated g low n := by
  induction hn with
  | flagged hflag => exact .flagged hflag
  | group hv hlarge hmem => exact .group hv (Nat.le_trans h hlarge) hmem
  | variant _ hinherits hvariant ih => exact .variant ih hinherits hvariant

/-! ### The signed threshold -/

/-- A threshold below `2 ^ 63` is read as it is. -/
theorem toInt_threshold_of_lt {threshold : UInt64} (h : threshold.toNat < 2 ^ 63) :
    threshold.toInt64.toInt = threshold.toNat := by
  rw [← Int64.toInt_toBitVec, UInt64.toBitVec_toInt64, BitVec.toInt_eq_toNat_cond]
  simp only [UInt64.toNat_toBitVec]
  omega

/-- Any other threshold is read as a negative number. -/
theorem toInt_threshold_of_le {threshold : UInt64} (h : 2 ^ 63 ≤ threshold.toNat) :
    threshold.toInt64.toInt = threshold.toNat - 2 ^ 64 := by
  rw [← Int64.toInt_toBitVec, UInt64.toBitVec_toInt64, BitVec.toInt_eq_toNat_cond]
  simp only [UInt64.toNat_toBitVec]
  omega

theorem hasManyOverloads_iff {threshold : UInt64} {e : Entity} :
    hasManyOverloads threshold e = true ↔
      ∃ methods constructors, e.int? .methodVariants = some methods ∧
        e.int? .constructorVariants = some constructors ∧
        threshold.toInt64 ≤ methods + constructors := by
  unfold hasManyOverloads
  split
  · rename_i methods constructors hmethods hconstructors
    simp [hmethods, hconstructors]
  · rename_i hnone
    constructor
    · exact fun h => absurd h Bool.false_ne_true
    · rintro ⟨methods, constructors, hmethods, hconstructors, -⟩
      exact absurd hconstructors (hnone methods constructors hmethods)

/-- The node has its two counts of overloads. Their sum, as a number of 64 bits, is too small for
the lower threshold and reaches the higher one, which is read as a negative number. -/
def Wraps (low high : UInt64) (e : Entity) : Prop :=
  low.toNat < 2 ^ 63 ∧ 2 ^ 63 ≤ high.toNat ∧
    ∃ methods constructors, e.int? .methodVariants = some methods ∧
      e.int? .constructorVariants = some constructors ∧
      (methods + constructors).toInt < low.toNat ∧
      high.toNat - 2 ^ 64 ≤ (methods + constructors).toInt

/-- The overloads that reach a higher threshold reach a lower one, unless the higher one wraps. -/
theorem hasManyOverloads_of_le {low high : UInt64} (h : low ≤ high) {e : Entity}
    (hmany : hasManyOverloads high e = true) :
    hasManyOverloads low e = true ∨ Wraps low high e := by
  obtain ⟨methods, constructors, hmethods, hconstructors, hhigh⟩ := hasManyOverloads_iff.mp hmany
  have hle : low.toNat ≤ high.toNat := h
  rw [Int64.le_iff_toInt_le] at hhigh
  by_cases hlow : low.toInt64 ≤ methods + constructors
  · exact Or.inl (hasManyOverloads_iff.mpr ⟨_, _, hmethods, hconstructors, hlow⟩)
  · rw [Int64.le_iff_toInt_le] at hlow
    refine Or.inr ?_
    -- Thresholds on the same side of `2 ^ 63` are read in their order.
    have hlow' : low.toNat < 2 ^ 63 := by
      by_contra hlarge
      rw [toInt_threshold_of_le (by omega)] at hlow
      rw [toInt_threshold_of_le (by omega)] at hhigh
      omega
    have hhigh' : 2 ^ 63 ≤ high.toNat := by
      by_contra hsmall
      rw [toInt_threshold_of_lt hlow'] at hlow
      rw [toInt_threshold_of_lt (by omega)] at hhigh
      omega
    rw [toInt_threshold_of_lt hlow'] at hlow
    rw [toInt_threshold_of_le hhigh'] at hhigh
    exact ⟨hlow', hhigh', _, _, hmethods, hconstructors, by omega, hhigh⟩

/-- Overloads that reach a threshold because it wraps. -/
theorem Wraps.hasManyOverloads {low high : UInt64} {e : Entity} (h : Wraps low high e) :
    hasManyOverloads high e = true := by
  obtain ⟨-, hhigh, methods, constructors, hmethods, hconstructors, -, hle⟩ := h
  refine hasManyOverloads_iff.mpr ⟨_, _, hmethods, hconstructors, ?_⟩
  rw [Int64.le_iff_toInt_le, toInt_threshold_of_le hhigh]
  exact hle

/-- **Higher thresholds.** A node that is a hotspot with higher thresholds is one with lower
thresholds, unless its overloads reach a threshold that wraps. -/
theorem IsHot.of_le {low high : HotspotThresholds} (hvariants : low.variants ≤ high.variants)
    (haggregations : low.aggregations ≤ high.aggregations) {n : NodeId} (hn : IsHot g high n) :
    IsHot g low n ∨ Wraps low.variants high.variants (g.entity n) := by
  obtain hlabel | hflag | ⟨hcrowd, hlt⟩ | hmany | hagg := hn
  · exact Or.inl (.labelled hlabel)
  · exact Or.inl (.flagged hflag)
  · exact Or.inl (.crowded (mem_crowdIds_of_le hvariants hcrowd) hlt)
  · exact (hasManyOverloads_of_le hvariants hmany).imp_left .overloaded
  · exact Or.inl (.aggregated (hagg.of_le haggregations))

/-! ### The overloads of classes -/

/-- The overloads of a class that has been measured. -/
theorem overloads_detected (hsmall : g.Addressable) {n : NodeId}
    (hn : (g.entity n).has .classType = true) :
    ∃ methods constructors,
      ((Rule.applyAll Variation.rules g).entity n).int? .methodVariants = some methods ∧
      ((Rule.applyAll Variation.rules g).entity n).int? .constructorVariants = some constructors ∧
      0 ≤ (methods + constructors).toInt := by
  have hmethods := Variation.int?_detected (k := 1) rfl Rule.reads_methodVariants hn
  have hconstructors := Variation.int?_detected (k := 3) rfl Rule.reads_constructorVariants hn
  refine ⟨_, _, hmethods, hconstructors, ?_⟩
  have hoverloads := g.sum_overloads_le n .method
  rw [List.sum_eq_foldl] at hoverloads
  have hmethodCount := g.memberCount_le n [.method]
  have hconstructorCount := g.memberCount_le n [.constructor]
  have hedges := hsmall.length_edgesFrom_le n
  rw [← Int64.ofNat_add, Int64.toInt_ofNat_of_lt]
  · exact Int.natCast_nonneg _
  · split <;> omega

/-- A threshold that wraps makes a hotspot of every class. -/
theorem isHot_of_wrapped (hsmall : g.Addressable) {t : HotspotThresholds}
    (ht : 2 ^ 63 ≤ t.variants.toNat) {n : NodeId} (hn : (g.entity n).has .classType = true) :
    IsHot (Rule.applyAll Variation.rules g) t n := by
  obtain ⟨methods, constructors, hmethods, hconstructors, hsum⟩ := overloads_detected hsmall hn
  refine .overloaded (hasManyOverloads_iff.mpr ⟨_, _, hmethods, hconstructors, ?_⟩)
  rw [Int64.le_iff_toInt_le, toInt_threshold_of_le ht]
  have hbound := t.variants.toNat_lt
  omega

/-! ### A whole detection -/

/-- **Raising thresholds.** Detection of variation points and then, with either thresholds, of
hotspots succeeds on every closed graph. A hotspot of the higher thresholds is one of the lower
thresholds, unless the threshold for variants crosses `2 ^ 63` and the overloads of the node add up
to a number between the two as they are read. Every such node is a hotspot of the higher thresholds.
With as many edges as a store can number, from `2 ^ 63` on every class is a hotspot. -/
theorem detect_hotspot_of_le (hg : g.Closed) (low high : HotspotThresholds)
    (hvariants : low.variants ≤ high.variants)
    (haggregations : low.aggregations ≤ high.aggregations) :
    ∃ d dlow dhigh, Yields Variation.detect g () d ∧
      Yields (detect low) d () dlow ∧ Yields (detect high) d () dhigh ∧
      (∀ n, (dhigh.entity n).has .hotspot = true →
        (dlow.entity n).has .hotspot = true ∨
          Wraps low.variants high.variants (d.entity n)) ∧
      (∀ n, Wraps low.variants high.variants (d.entity n) →
        (dhigh.entity n).has .hotspot = true) ∧
      (g.Addressable → 2 ^ 63 ≤ high.variants.toNat → ∀ n,
        (g.entity n).has .classType = true → (dhigh.entity n).has .hotspot = true) := by
  have hd : (Rule.applyAll Variation.rules g).Closed := Rule.closed_applyAll hg _
  refine ⟨_, _, _, Variation.applies_detect hg, applies_detect low hd, applies_detect high hd,
    fun n hn => ?_, fun n hn => ?_, fun hsmall hwraps n hn => ?_⟩
  · rw [has_hotspot_iff hd] at hn ⊢
    exact hn.of_le hvariants haggregations
  · rw [has_hotspot_iff hd]
    exact .overloaded hn.hasManyOverloads
  · rw [has_hotspot_iff hd]
    exact isHot_of_wrapped hsmall hwraps hn

theorem detect_hotspot_of_le_knot :
    knot.Closed ∧ (2 : UInt64) ≤ 9223372036854775809 ∧ (2 : UInt64) ≤ 3 ∧
    ∃ d dlow dhigh, Yields Variation.detect knot () d ∧
      Yields (detect { variants := 2, aggregations := 2 }) d () dlow ∧
      Yields (detect { variants := 9223372036854775809, aggregations := 3 }) d () dhigh ∧
      (∀ n, (dhigh.entity n).has .hotspot = true →
        (dlow.entity n).has .hotspot = true ∨ Wraps 2 9223372036854775809 (d.entity n)) ∧
      (∀ n, Wraps 2 9223372036854775809 (d.entity n) → (dhigh.entity n).has .hotspot = true) ∧
      (∀ n, (knot.entity n).has .classType = true → (dhigh.entity n).has .hotspot = true) := by
  have hclosed : knot.Closed := by decide
  have hsmall : knot.Addressable := ⟨by decide, by decide⟩
  obtain ⟨d, dlow, dhigh, hdetect, hlow, hhigh, hfewer, hmore, hwraps⟩ :=
    detect_hotspot_of_le hclosed { variants := 2, aggregations := 2 }
      { variants := 9223372036854775809, aggregations := 3 } (by decide) (by decide)
  exact ⟨hclosed, by decide, by decide, d, dlow, dhigh, hdetect, hlow, hhigh, hfewer, hmore,
    hwraps hsmall (by decide)⟩

/-- A class without members. -/
def lone : Graph := Graph.empty.addNode "a.A" [.classType]

/-- Both configurations are valid, no node is a hotspot before, and the class is a hotspot with the
higher threshold only. -/
theorem detect_hotspot_lone :
    Config.validate {} = .ok () ∧
    Config.validate { hotspots := { variants := 9223372036854775808 } } = .ok () ∧
    (20 : UInt64) ≤ 9223372036854775808 ∧ lone.Closed ∧
    (∀ e ∈ lone.entities.toList, e.has .hotspot = false ∧ e.flag .hotspot = false ∧
      e.flag .aggregation = false) ∧
    ∃ d dlow dhigh, Yields Variation.detect lone () d ∧ Yields (detect {}) d () dlow ∧
      Yields (detect { variants := 9223372036854775808 }) d () dhigh ∧
      (dlow.entity 0).has .hotspot = false ∧ (dhigh.entity 0).has .hotspot = true := by
  have hclosed : lone.Closed := by decide
  have hd : (Rule.applyAll Variation.rules lone).Closed := Rule.closed_applyAll hclosed _
  refine ⟨by decide, by decide, by decide, hclosed, by decide, _, _, _,
    Variation.applies_detect hclosed, applies_detect _ hd, applies_detect _ hd, ?_, ?_⟩
  · rw [← Bool.not_eq_true, has_hotspot_iff hd]
    rintro (hlabel | hflag | ⟨hcrowd, -⟩ | hmany | hagg)
    · exact absurd hlabel (by decide)
    · exact absurd hflag (by decide)
    · exact absurd hcrowd (by decide)
    · exact absurd hmany (by decide)
    · cases hagg with
      | flagged hflag => exact absurd hflag (by decide)
      | @group v _ hv _ _ =>
          have hlt := Graph.lt_size_of_has hv
          rw [Rule.size_applyAll] at hlt
          obtain rfl : v = 0 := Nat.lt_one_iff.mp hlt
          exact absurd hv (by decide)
      | variant _ _ hvariant => exact absurd hvariant (by decide)
  · rw [has_hotspot_iff hd]
    exact isHot_of_wrapped ⟨by decide, by decide⟩ (by decide) (by decide)

end Hotspot

end Variability
