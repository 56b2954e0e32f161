import Variability.Proofs.Numbers

/-!
# What the labels of detection mean

The rules of detection feed each other: properties that one sets are read by the next, and labels
that one gives are what the next selects by. On a graph that carries nothing of an earlier
detection, what comes out can still be said without any order, label by label, from the graph
before (`Variation.LabelMeaning`).

Each label is given by one rule. What the rule reads in its turn is either given, and then the
same as before, or written by rules before it and by none after it, and then the same as at the
end. This is why the meaning of `variant` speaks of the variation points at the end.

## Main results

* `Graph.one_lt_variantCount_iff`, `Graph.overloaded_iff`: counts as statements about neighbours.
* `Variation.has_variationPoint` and its companions: each label in terms of the graph before.
* `Variation.detect_labelMeaning`: detection succeeds, and its labels have their meaning.
-/

namespace Variability

open Session

/-! ### Neighbours -/

namespace Graph

/-- `m` is a class that directly extends or implements `n`. -/
def ClassBelow (g : Graph) (n m : NodeId) : Prop :=
  g.Inherits n m ∧ (g.entity m).has .classType = true

/-- `m` is a successor of `n`, along any relation, that carries a label. -/
def Member (g : Graph) (l : Label) (n m : NodeId) : Prop :=
  (∃ r, g.Step r n m) ∧ (g.entity m).has l = true

theorem mem_targets_nil {g : Graph} {n m : NodeId} :
    m ∈ g.targets [] n ↔ ∃ r, g.Step r n m := by
  rw [mem_targets]
  simp [Relation.isAmong]

/-- More than one member of a list without repetitions meets a condition exactly when two
distinct members do. -/
theorem one_lt_countP_iff {ids : List NodeId} (h : ids.Nodup) {c : NodeId → Bool} :
    1 < ids.countP c ↔ ∃ a b, a ≠ b ∧ (a ∈ ids ∧ c a = true) ∧ (b ∈ ids ∧ c b = true) := by
  have hnodup : (ids.filter c).Nodup := h.filter c
  simp only [List.countP_eq_length_filter, ← List.mem_filter]
  generalize ids.filter c = found at hnodup
  constructor
  · intro hlen
    match found, hlen with
    | a :: b :: rest, _ =>
        have hab : a ≠ b := fun heq => (List.nodup_cons.mp hnodup).1 (heq ▸ List.mem_cons_self)
        exact ⟨a, b, hab, List.mem_cons_self, List.mem_cons_of_mem _ List.mem_cons_self⟩
  · rintro ⟨a, b, hab, ha, hb⟩
    match found, ha, hb with
    | [x], ha, hb =>
        exact absurd ((List.mem_singleton.mp ha).trans (List.mem_singleton.mp hb).symm) hab
    | _ :: _ :: _, _, _ => simp

/-- A type has a variant exactly when a class is below it. -/
theorem variantCount_pos_iff {g : Graph} {n : NodeId} :
    0 < g.variantCount n ↔ ∃ m, g.ClassBelow n m := by
  simp only [variantCount, List.countP_pos_iff, mem_targets_inheritance, ClassBelow]

/-- A type has several variants exactly when two distinct classes are below it. -/
theorem one_lt_variantCount_iff {g : Graph} {n : NodeId} :
    1 < g.variantCount n ↔ ∃ a b, a ≠ b ∧ g.ClassBelow n a ∧ g.ClassBelow n b := by
  rw [variantCount, one_lt_countP_iff (nodup_targets ..)]
  simp only [mem_targets_inheritance, ClassBelow]

/-- A node has several neighbours with a label exactly when two distinct ones have it. -/
theorem one_lt_memberCount_iff {g : Graph} {n : NodeId} {l : Label} :
    1 < g.memberCount n [l] ↔ ∃ a b, a ≠ b ∧ g.Member l n a ∧ g.Member l n b := by
  rw [memberCount, one_lt_countP_iff (nodup_targets ..)]
  simp only [mem_targets_nil, Member, List.all_cons, List.all_nil, Bool.and_true]

/-- Some name of neighbours with a label is overloaded exactly when two distinct ones share
theirs. -/
theorem overloaded_iff {g : Graph} {n : NodeId} {l : Label} :
    0 < (Metric.overloads (NameCount.tally (g.memberNames n l))).length ↔
      ∃ a b, a ≠ b ∧ g.Member l n a ∧ g.Member l n b ∧
        (g.entity a).name = (g.entity b).name := by
  rw [Metric.overloads_tally_pos_iff, memberNames,
    List.nodup_map_iff_inj_on ((nodup_targets g [] n).filter _)]
  simp only [List.mem_filter, mem_targets_nil, Member]
  constructor
  · intro h
    push Not at h
    obtain ⟨a, ha, b, hb, hname, hab⟩ := h
    exact ⟨a, b, hab, ha, hb, hname⟩
  · rintro ⟨a, b, hab, ha, hb, hname⟩ h
    exact hab (h a ha b hb hname)

end Graph

/-! ### Before detection -/

/-- The labels that the rules of detection give. -/
def Variation.labels : List Label :=
  [.variationPoint, .variant, .methodLevelPoint, .compositionStrategy, .dense]

/-- Nothing about the entity comes from an earlier detection. -/
structure Entity.Undetected (e : Entity) : Prop where
  has : ∀ l ∈ Variation.labels, e.has l = false
  property? : ∀ p, e.property? p = none

/-- Nothing in the graph comes from an earlier detection. -/
def Graph.Undetected (g : Graph) : Prop := ∀ n, (g.entity n).Undetected

/-- A new entity whose labels are not those of detection. -/
theorem Entity.undetected_new {name : String} {ls : List Label}
    (h : ∀ l ∈ Variation.labels, l ∉ ls) :
    Entity.Undetected { name, labels := .ofList ls } where
  has l hl := by simp [Entity.has, h l hl]
  property? p := PropertyTable.get?_empty p

namespace Graph

theorem undetected_empty : empty.Undetected := by
  intro n
  rw [entity_of_le (Nat.zero_le n)]
  have hnew : Entity.Undetected { name := "", labels := .ofList [] } :=
    Entity.undetected_new (by simp)
  exact hnew

theorem Undetected.addNode {g : Graph} (hg : g.Undetected) (name : String) {ls : List Label}
    (h : ∀ l ∈ Variation.labels, l ∉ ls) : (g.addNode name ls).Undetected := by
  intro n
  rw [entity_addNode]
  split
  · exact Entity.undetected_new h
  · exact hg n

end Graph

/-! ### Each label -/

namespace Variation

/-- The labels of `d` say about the nodes of `g` what they are meant to say, and `d` is `g` in
all that was given. Where a label rests on a count, that takes a graph that a store can number. -/
structure LabelMeaning (g d : Graph) : Prop where
  /-- A variation point is in scope, and is an interface, an abstract class, part of a design
  pattern, or a type with a class below it. -/
  variationPoint : g.Addressable → ∀ n, (d.entity n).has .variationPoint = true ↔
    (g.entity n).has .outOfScope = false ∧
      ((g.entity n).has .interfaceType = true ∨
        ((g.entity n).has .classType = true ∧ (g.entity n).has .abstract = true) ∨
        (∃ p, (g.entity n).has (.pattern p) = true) ∨
        ((g.entity n).isType = true ∧ ∃ m, g.ClassBelow n m))
  /-- A variation point on the level of methods is a class in scope with two methods of one name
  or with two constructors. -/
  methodLevelPoint : g.Addressable → ∀ n, (d.entity n).has .methodLevelPoint = true ↔
    (g.entity n).has .outOfScope = false ∧ (g.entity n).has .classType = true ∧
      ((∃ a b, a ≠ b ∧ g.Member .method n a ∧ g.Member .method n b ∧
          (g.entity a).name = (g.entity b).name) ∨
        ∃ a b, a ≠ b ∧ g.Member .constructor n a ∧ g.Member .constructor n b)
  /-- A variant is a type that directly extends or implements a variation point. -/
  variant : ∀ n, (d.entity n).has .variant = true ↔
    (g.entity n).isType = true ∧
      ∃ m, g.Inherits m n ∧ (d.entity m).has .variationPoint = true
  /-- A composition strategy is a type that a type is composed of, with two classes below it. -/
  compositionStrategy : g.Addressable → ∀ n, (d.entity n).has .compositionStrategy = true ↔
    (g.entity n).isType = true ∧
      (∃ m, g.Step .composing m n ∧ (g.entity m).isType = true) ∧
      ∃ a b, a ≠ b ∧ g.ClassBelow n a ∧ g.ClassBelow n b
  /-- A dense node is a variant at one end of a composition whose other end is a variant. -/
  dense : ∀ n, (d.entity n).has .dense = true ↔
    (d.entity n).has .variant = true ∧
      ∃ m, (d.entity m).has .variant = true ∧
        (g.Step .composing n m ∨ g.Step .composing m n)
  /-- Nodes, names, edges and all labels that detection does not give are as before. -/
  kept : g.Agree Trait.IsGiven d

variable {g : Graph}

/-- The count of a metric at a stage after its rule, in a graph without properties before. -/
theorem count_stage (hg : g.Undetected) {k j : Nat} {p : Property}
    {selects : Graph → List NodeId} {count : Graph → NodeId → Nat}
    (hj : (rules.take k)[j]? = some (.put p selects fun g id => .ofCount (count g id)))
    (hreads : (Rule.put p selects fun g id => .ofCount (count g id)).Reads Trait.IsGiven)
    (n : NodeId) :
    ((stage k g).entity n).count p =
      if n ∈ selects g ∧ n < g.size then .ofNat (count g n) else 0 := by
  have hnodup : ((rules.take k).map Rule.trait).Nodup :=
    nodup_traits.sublist ((List.take_sublist k rules).map _)
  have hgiven : ∀ r ∈ rules.take k, ¬ r.trait.IsGiven :=
    fun r hr => not_isGiven_of_mem_rules r (List.mem_of_mem_take hr)
  have hprop := Rule.property?_applyAll_metric hnodup hgiven hj hreads g n
  rw [(hg n).property?] at hprop
  rw [Entity.count, Entity.int?, stage, hprop]
  split <;> rfl

/-- The variants of types, at a stage after they have been counted. -/
theorem lt_count_typeVariants (hg : g.Undetected) {k : Nat}
    (hk : (rules.take k)[4]? = some .typeVariants) (n : NodeId) {m : Nat} (hm : m < 2 ^ 63) :
    Int64.ofNat m < ((stage k g).entity n).count .typeVariants ↔
      (g.entity n).isType = true ∧ Int64.ofNat m < Int64.ofNat (g.variantCount n) := by
  rw [count_stage hg hk Rule.reads_typeVariants n]
  by_cases htype : (g.entity n).isType = true
  · simp only [Graph.mem_idsWhere, htype, Graph.lt_size_of_isType htype, and_self, if_true,
      true_and]
  · rw [if_neg fun h => htype (Graph.mem_idsWhere.mp h.1).2]
    refine ⟨fun h => ?_, fun h => absurd h.1 htype⟩
    exact absurd ((Int64.ofNat_lt_iff_lt hm (by decide)).mp h) (Nat.not_lt_zero m)

/-- The overloaded method names of classes, at a stage after they have been counted. -/
theorem count_methodPoints_pos (hsmall : g.Addressable) (hg : g.Undetected) {k : Nat}
    (hk : (rules.take k)[0]? = some .methodPoints) (n : NodeId) :
    0 < ((stage k g).entity n).count .methodPoints ↔ (g.entity n).has .classType = true ∧
      ∃ a b, a ≠ b ∧ g.Member .method n a ∧ g.Member .method n b ∧
        (g.entity a).name = (g.entity b).name := by
  rw [count_stage hg hk Rule.reads_methodPoints n, ← Graph.overloaded_iff]
  by_cases hclass : (g.entity n).has .classType = true
  · simp only [Graph.mem_idsWhere, hclass, Graph.lt_size_of_has hclass, and_self, if_true,
      true_and]
    exact hsmall.ofNat_lt_ofNat_iff (by decide) (g.length_overloads_le n .method)
  · simp [hclass]

/-- Several constructors of classes, at a stage after they have been counted. -/
theorem count_constructorPoints_pos (hg : g.Undetected) {k : Nat}
    (hk : (rules.take k)[2]? = some .constructorPoints) (n : NodeId) :
    0 < ((stage k g).entity n).count .constructorPoints ↔
      (g.entity n).has .classType = true ∧
        ∃ a b, a ≠ b ∧ g.Member .constructor n a ∧ g.Member .constructor n b := by
  rw [count_stage hg hk Rule.reads_constructorPoints n, ← Graph.one_lt_memberCount_iff]
  by_cases hclass : (g.entity n).has .classType = true
  · by_cases hmany : 1 < g.memberCount n [.constructor]
    · simp [hclass, Graph.lt_size_of_has hclass, hmany]
    · simp [hclass, Graph.lt_size_of_has hclass, hmany]
  · simp [hclass]

/-- A label of detection that no node had before: a node has it in the end exactly when the rule
for it selected the node in its turn. -/
theorem has_newly_detected {k : Nat} {l : Label} {selects : Graph → List NodeId}
    (hk : rules[k]? = some (.mark l selects)) {n : NodeId} (hn : (g.entity n).has l = false) :
    ((Rule.applyAll rules g).entity n).has l = true ↔ n ∈ selects (stage k g) ∧ n < g.size := by
  rw [has_detected hk, hn]
  simp

/-- Detection labels the variation points by their labels and their numbers of variants. -/
theorem has_variationPoint_iff (hg : g.Undetected) (n : NodeId) :
    ((Rule.applyAll rules g).entity n).has .variationPoint = true ↔
      (g.entity n).has .outOfScope = false ∧
        ((g.entity n).has .interfaceType = true ∨
          ((g.entity n).has .classType = true ∧ (g.entity n).has .abstract = true) ∨
          (∃ p, (g.entity n).has (.pattern p) = true) ∨
          ((g.entity n).isType = true ∧ 0 < Int64.ofNat (g.variantCount n))) := by
  have hbefore := agree_measured g
  have hlabel : ∀ l, ((stage 5 g).entity n).has l = (g.entity n).has l :=
    fun l => hbefore.has (l := l) trivial n
  have hpattern : ((stage 5 g).entity n).hasPattern = (g.entity n).hasPattern := by
    simp [Entity.hasPattern, DesignPattern.all, hlabel]
  have hcount : 0 < ((stage 5 g).entity n).count .typeVariants ↔
      (g.entity n).isType = true ∧ 0 < Int64.ofNat (g.variantCount n) :=
    lt_count_typeVariants hg (k := 5) rfl n (by decide)
  rw [has_newly_detected (k := 5) rfl ((hg n).has _ (by decide)), Graph.mem_idsWhere, hbefore.size,
    Entity.isOutOfScope, isPoint, hpattern, ← Entity.hasPattern_iff, ← hcount]
  simp only [hlabel, Bool.and_eq_true, Bool.or_eq_true, Bool.not_eq_true', decide_eq_true_eq,
    or_assoc]
  constructor
  · rintro ⟨⟨-, h⟩, -⟩
    exact h
  · rintro ⟨hscope, hpoint⟩
    have hlt : n < g.size := by
      rcases hpoint with h | ⟨h, -⟩ | h | h
      · exact Graph.lt_size_of_has h
      · exact Graph.lt_size_of_has h
      · obtain ⟨p, hp⟩ := Entity.hasPattern_iff.mp h
        exact Graph.lt_size_of_has hp
      · exact Graph.lt_size_of_isType (hcount.mp h).1
    exact ⟨⟨hlt, hscope, hpoint⟩, hlt⟩

/-- Detection labels exactly the variation points. -/
theorem has_variationPoint (hsmall : g.Addressable) (hg : g.Undetected) (n : NodeId) :
    ((Rule.applyAll rules g).entity n).has .variationPoint = true ↔
      (g.entity n).has .outOfScope = false ∧
        ((g.entity n).has .interfaceType = true ∨
          ((g.entity n).has .classType = true ∧ (g.entity n).has .abstract = true) ∨
          (∃ p, (g.entity n).has (.pattern p) = true) ∨
          ((g.entity n).isType = true ∧ ∃ m, g.ClassBelow n m)) := by
  have hvariants : 0 < Int64.ofNat (g.variantCount n) ↔ 0 < g.variantCount n :=
    hsmall.ofNat_lt_ofNat_iff (by decide) (g.variantCount_le n)
  rw [has_variationPoint_iff hg, hvariants, Graph.variantCount_pos_iff]

/-- Detection labels exactly the classes with overloads. -/
theorem has_methodLevelPoint (hsmall : g.Addressable) (hg : g.Undetected) (n : NodeId) :
    ((Rule.applyAll rules g).entity n).has .methodLevelPoint = true ↔
      (g.entity n).has .outOfScope = false ∧ (g.entity n).has .classType = true ∧
        ((∃ a b, a ≠ b ∧ g.Member .method n a ∧ g.Member .method n b ∧
            (g.entity a).name = (g.entity b).name) ∨
          ∃ a b, a ≠ b ∧ g.Member .constructor n a ∧ g.Member .constructor n b) := by
  have hmethods := count_methodPoints_pos hsmall hg (k := 6) rfl n
  have hconstructors := count_constructorPoints_pos hg (k := 6) rfl n
  have hscope := (agree_stage 6 g).has (l := .outOfScope) rfl n
  rw [has_newly_detected (k := 6) rfl ((hg n).has _ (by decide)), Graph.mem_idsWhere,
    (agree_stage 6 g).size, Entity.isOutOfScope, isMethodLevelPoint, hscope]
  simp only [Bool.and_eq_true, Bool.or_eq_true, Bool.not_eq_true', decide_eq_true_eq, hmethods,
    hconstructors, ← and_or_left]
  constructor
  · rintro ⟨⟨-, h⟩, -⟩
    exact h
  · rintro ⟨hscope, hclass, hmany⟩
    have hlt : n < g.size := Graph.lt_size_of_has hclass
    exact ⟨⟨hlt, hscope, hclass, hmany⟩, hlt⟩

/-- Detection labels exactly the types below a variation point. -/
theorem has_variant (hg : g.Undetected) (n : NodeId) :
    ((Rule.applyAll rules g).entity n).has .variant = true ↔
      (g.entity n).isType = true ∧ ∃ m, g.Inherits m n ∧
        ((Rule.applyAll rules g).entity m).has .variationPoint = true := by
  -- From here on no rule writes variation points.
  have hafter : (stage 7 g).Agree (· = .label .variationPoint) (Rule.applyAll rules g) :=
    Rule.agree_take 7 (by simp [rules]) g
  have hpoint : ∀ m, ((stage 7 g).entity m).has .variationPoint =
      ((Rule.applyAll rules g).entity m).has .variationPoint := fun m => (hafter.has rfl m).symm
  have htype : ∀ m, ((stage 7 g).entity m).isType = (g.entity m).isType :=
    (agree_stage 7 g).isType rfl rfl
  rw [has_newly_detected (k := 7) rfl ((hg n).has _ (by decide))]
  generalize Rule.applyAll rules g = d at hpoint
  simp only [List.mem_map, Graph.mem_edgesOf, variantPattern, NodeFilter.accepts_labelled,
    NodeFilter.accepts_types, hpoint, htype, (agree_stage 7 g).step, Graph.Inherits]
  constructor
  · rintro ⟨⟨⟨s, r, t⟩, ⟨hstep, hr, hs, ht⟩, rfl⟩, -⟩
    exact ⟨ht, s, ⟨r, by simpa [Relation.isAmong, Relation.inheritance] using hr, hstep⟩, hs⟩
  · rintro ⟨ht, s, ⟨r, hr, hstep⟩, hs⟩
    refine ⟨⟨⟨s, r, n⟩, ⟨hstep, ?_, hs, ht⟩, rfl⟩, Graph.lt_size_of_isType ht⟩
    simpa [Relation.isAmong, Relation.inheritance] using hr

/-- Detection labels the composition strategies by their numbers of variants. -/
theorem has_compositionStrategy_iff (hg : g.Undetected) (n : NodeId) :
    ((Rule.applyAll rules g).entity n).has .compositionStrategy = true ↔
      (g.entity n).isType = true ∧
        (∃ m, g.Step .composing m n ∧ (g.entity m).isType = true) ∧
        1 < Int64.ofNat (g.variantCount n) := by
  have hcount : ∀ m, ((stage 12 g).entity m).count .typeVariants > 1 ↔
      (g.entity m).isType = true ∧ 1 < Int64.ofNat (g.variantCount m) :=
    fun m => lt_count_typeVariants hg (k := 12) rfl m (by decide)
  have htype : ∀ m, ((stage 12 g).entity m).isType = (g.entity m).isType :=
    (agree_stage 12 g).isType rfl rfl
  rw [has_newly_detected (k := 12) rfl ((hg n).has _ (by decide))]
  simp only [List.mem_map, List.mem_filter, Graph.mem_edgesOf, compositionPattern,
    NodeFilter.accepts_types, NodeFilter.accepts_anyNode, htype, decide_eq_true_eq, hcount,
    (agree_stage 12 g).step]
  constructor
  · rintro ⟨⟨⟨s, r, t⟩, ⟨⟨hstep, hr, hs, -⟩, ht, hmany⟩, rfl⟩, -⟩
    obtain rfl : r = .composing := by simpa [Relation.isAmong] using hr
    exact ⟨ht, ⟨s, hstep, hs⟩, hmany⟩
  · rintro ⟨ht, ⟨s, hstep, hs⟩, hmany⟩
    exact ⟨⟨⟨s, .composing, n⟩, ⟨⟨hstep, rfl, hs, trivial⟩, ht, hmany⟩, rfl⟩,
      Graph.lt_size_of_isType ht⟩

/-- Detection labels exactly the types with several variants that types are composed of. -/
theorem has_compositionStrategy (hsmall : g.Addressable) (hg : g.Undetected) (n : NodeId) :
    ((Rule.applyAll rules g).entity n).has .compositionStrategy = true ↔
      (g.entity n).isType = true ∧
        (∃ m, g.Step .composing m n ∧ (g.entity m).isType = true) ∧
        ∃ a b, a ≠ b ∧ g.ClassBelow n a ∧ g.ClassBelow n b := by
  have hvariants : 1 < Int64.ofNat (g.variantCount n) ↔ 1 < g.variantCount n :=
    hsmall.ofNat_lt_ofNat_iff (by decide) (g.variantCount_le n)
  rw [has_compositionStrategy_iff hg, hvariants, Graph.one_lt_variantCount_iff]

/-- Detection labels exactly the ends of compositions between variants. -/
theorem has_dense (hg : g.Undetected) (n : NodeId) :
    ((Rule.applyAll rules g).entity n).has .dense = true ↔
      ((Rule.applyAll rules g).entity n).has .variant = true ∧
        ∃ m, ((Rule.applyAll rules g).entity m).has .variant = true ∧
          (g.Step .composing n m ∨ g.Step .composing m n) := by
  have hafter : (stage 13 g).Agree (· = .label .variant) (Rule.applyAll rules g) :=
    Rule.agree_take 13 (by simp [rules]) g
  have hvariant : ∀ m, ((stage 13 g).entity m).has .variant =
      ((Rule.applyAll rules g).entity m).has .variant := fun m => (hafter.has rfl m).symm
  have hsize : (Rule.applyAll rules g).size = g.size := Rule.size_applyAll rules g
  rw [has_newly_detected (k := 13) rfl ((hg n).has _ (by decide))]
  generalize Rule.applyAll rules g = d at hvariant hsize
  simp only [List.mem_flatMap, Graph.mem_edgesOf, densePattern, NodeFilter.accepts_labelled,
    hvariant, (agree_stage 13 g).step, List.mem_cons, List.not_mem_nil, or_false]
  constructor
  · rintro ⟨⟨⟨s, r, t⟩, ⟨hstep, hr, hs, ht⟩, hn⟩, -⟩
    obtain rfl : r = .composing := by simpa [Relation.isAmong] using hr
    rcases hn with rfl | rfl
    · exact ⟨hs, t, ht, Or.inl hstep⟩
    · exact ⟨ht, s, hs, Or.inr hstep⟩
  · rintro ⟨hn, m, hm, hstep⟩
    have hlt : n < g.size := hsize ▸ Graph.lt_size_of_has hn
    rcases hstep with hstep | hstep
    · exact ⟨⟨⟨n, .composing, m⟩, ⟨hstep, rfl, hn, hm⟩, Or.inl rfl⟩, hlt⟩
    · exact ⟨⟨⟨m, .composing, n⟩, ⟨hstep, rfl, hm, hn⟩, Or.inr rfl⟩, hlt⟩

/-- The rules of detection give their labels their meaning. -/
theorem labelMeaning_applyAll (hg : g.Undetected) : LabelMeaning g (Rule.applyAll rules g) where
  variationPoint hsmall := has_variationPoint hsmall hg
  methodLevelPoint hsmall := has_methodLevelPoint hsmall hg
  variant := has_variant hg
  compositionStrategy hsmall := has_compositionStrategy hsmall hg
  dense := has_dense hg
  kept := agree_detected g

/-- **The meaning of the labels.** On a closed graph that carries nothing of an earlier detection,
detection succeeds, and its labels say what they are meant to say. -/
theorem detect_labelMeaning (hclosed : g.Closed) (hg : g.Undetected) :
    ∃ d, Yields detect g () d ∧ LabelMeaning g d :=
  ⟨_, applies_detect hclosed, labelMeaning_applyAll hg⟩

/-- An interface with two implementing classes, of which one is composed of the interface and has
two constructors. -/
def shapes : Graph :=
  ((((((((Graph.empty.addNode "Shape" [.interfaceType]).addNode "Circle" [.classType]).addNode
    "Group" [.classType]).addNode "Group" [.constructor]).addNode "Group" [.constructor]).addEdge
    0 .implementing 1).addEdge 0 .implementing 2).addEdge 2 .composing 0).addEdge 2 .member 3
    |>.addEdge 2 .member 4

theorem detect_labelMeaning_shapes : shapes.Closed ∧ shapes.Addressable ∧ shapes.Undetected ∧
    ∃ d, Yields detect shapes () d ∧ LabelMeaning shapes d := by
  have hclosed : shapes.Closed := by decide
  have hsmall : shapes.Addressable := ⟨by decide, by decide⟩
  have hg : shapes.Undetected :=
    ((((Graph.undetected_empty.addNode "Shape" (by decide)).addNode "Circle" (by decide)).addNode
      "Group" (by decide)).addNode "Group" (by decide)).addNode "Group" (by decide)
  exact ⟨hclosed, hsmall, hg, detect_labelMeaning hclosed hg⟩

end Variation

end Variability
