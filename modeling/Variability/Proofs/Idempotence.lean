import Variability.Proofs.Hotspots

/-!
# Detection is idempotent

Detecting a second time changes nothing, on any graph, whatever labels and properties it carried
before the first time. For most rules this is because nothing that they read is written from
their turn on, so that they select the same nodes again (`Rule.settled_of_reads`). Two rules are
different.

A variation point may be one because of a design pattern, and composition strategies are a design
pattern that is found only later. But a composition strategy has variants, and what has variants
was a variation point before (`Variation.settled_points`).

The rule for aggregations reads the flag that it sets. What it flags is closed under its own
conditions, so flagging it adds nothing to what they lead to (`Hotspot.Aggregated.of_agree`).

## Main results

* `Variation.applyAll_rules_eq`: detection changes no graph that differs from a detected one only
  in what hotspot detection writes.
* `Hotspot.applyAll_rules_eq`: hotspot detection changes nothing the second time.
* `detection_idempotent`: both together, and each alone, change nothing the second time.
-/

namespace Variability

open Session

namespace Rule

variable {S : Trait → Prop}

/-! ### What the labels read -/

/-- Labelling nodes in scope reads what its condition reads. -/
theorem reads_inScope {l : Label} {c : Entity → Bool} (hscope : S (.label .outOfScope))
    (hc : ∀ g h : Graph, g.Agree S h → ∀ id, c (h.entity id) = c (g.entity id)) :
    (inScope l c).Reads S := by
  intro g h H
  refine H.idsWhere fun id => ?_
  rw [Entity.isOutOfScope, Entity.isOutOfScope, H.has hscope, hc g h H]

theorem reads_points : points.Reads fun t =>
    t.IsGiven ∨ t = .label .compositionStrategy ∨ t = .property .typeVariants := by
  refine reads_inScope (Or.inl rfl) fun g h H id => ?_
  have hpattern : ∀ p, (h.entity id).has (.pattern p) = (g.entity id).has (.pattern p) := by
    intro p
    refine H.has ?_ id
    cases p <;> decide
  have hcount := H.count (p := .typeVariants) (Or.inr (Or.inr rfl)) id
  unfold Variation.isPoint Entity.hasPattern
  simp only [hcount, H.has (l := .interfaceType) (Or.inl rfl), H.has (l := .classType) (Or.inl rfl),
    H.has (l := .abstract) (Or.inl rfl), Function.comp_def, hpattern]

theorem reads_methodLevelPoints : methodLevelPoints.Reads fun t =>
    t.IsGiven ∨ t = .property .methodPoints ∨ t = .property .constructorPoints := by
  refine reads_inScope (Or.inl rfl) fun g h H id => ?_
  unfold Variation.isMethodLevelPoint
  rw [H.count (Or.inr (Or.inl rfl)), H.count (Or.inr (Or.inr rfl))]

theorem reads_variants : variants.Reads fun t => t.IsGiven ∨ t = .label .variationPoint := by
  intro g h H
  have hedges : h.edgesOf Variation.variantPattern = g.edgesOf Variation.variantPattern :=
    H.edgesOf (by decide)
  simp only [hedges]

theorem reads_compositionStrategies :
    compositionStrategies.Reads fun t => t.IsGiven ∨ t = .property .typeVariants := by
  intro g h H
  have hedges : h.edgesOf Variation.compositionPattern = g.edgesOf Variation.compositionPattern :=
    H.edgesOf (by decide)
  have hcount : ∀ id, (h.entity id).count .typeVariants = (g.entity id).count .typeVariants :=
    H.count (Or.inr rfl)
  simp only [hedges, hcount]

theorem reads_dense : dense.Reads fun t => t = .label .variant := by
  intro g h H
  have hedges : h.edgesOf Variation.densePattern = g.edgesOf Variation.densePattern :=
    H.edgesOf (by decide)
  simp only [hedges]

end Rule

namespace Variation

variable {g : Graph}

/-! ### Variation points and variants -/

/-- What is a variation point when all rules have been applied was one in the turn of its rule: if
it is one as a composition strategy, then it had variants. -/
theorem isPoint_stage {n : NodeId} (hn : isPoint ((Rule.applyAll rules g).entity n) = true) :
    isPoint ((stage 5 g).entity n) = true := by
  have hafter : (stage 5 g).Agree (fun t => t.IsGiven ∨ t = .property .typeVariants)
      (Rule.applyAll rules g) :=
    Rule.agree_take 5 (by simp [rules, Trait.IsGiven, Label.isFinding]) g
  have hlater : (stage 12 g).Agree (· = .property .typeVariants) (Rule.applyAll rules g) :=
    Rule.agree_take 12 (by simp [rules]) g
  have hgiven : ∀ l, l.isFinding = false → ((Rule.applyAll rules g).entity n).has l =
      ((stage 5 g).entity n).has l := fun l hl => hafter.has (Or.inl hl) n
  have hcount := hafter.count (Or.inr rfl) n
  simp only [isPoint, Bool.or_eq_true, Bool.and_eq_true, decide_eq_true_eq] at hn ⊢
  rw [hgiven .interfaceType rfl, hgiven .classType rfl, hgiven .abstract rfl, hcount] at hn
  rcases hn with (h | h) | h
  · exact Or.inl (Or.inl h)
  · obtain ⟨p, hp⟩ := Entity.hasPattern_iff.mp h
    cases p with
    | compositionStrategy =>
        rcases (has_detected (k := 12) rfl g n).mp hp with hp | ⟨hp, -⟩
        · have hlabel := (agree_measured g).has (l := .compositionStrategy) trivial n
          exact Or.inl (Or.inr (Entity.hasPattern_iff.mpr ⟨_, hlabel.trans hp⟩))
        · obtain ⟨e, he, rfl⟩ := List.mem_map.mp hp
          have hmany := of_decide_eq_true (List.mem_filter.mp he).2
          refine Or.inr ?_
          rw [← hcount, hlater.count rfl]
          exact Int64.lt_trans (by decide) hmany
    | _ =>
        have hp' := (hgiven _ (by rfl)).symm.trans hp
        exact Or.inl (Or.inr (Entity.hasPattern_iff.mpr ⟨_, hp'⟩))
  · exact Or.inr h

/-- The rule for variation points is settled when all rules have been applied. -/
theorem settled_points (g : Graph) : Rule.points.Settled (Rule.applyAll rules g) := by
  intro n hn hlt
  obtain ⟨-, hselected⟩ := Graph.mem_idsWhere.mp hn
  obtain ⟨hscope, hpoint⟩ := (Bool.and_eq_true _ _).mp hselected
  have hsame : ((stage 5 g).entity n).isOutOfScope =
      ((Rule.applyAll rules g).entity n).isOutOfScope :=
    ((agree_stage 5 g).has (l := .outOfScope) rfl n).trans
      ((agree_detected g).has (l := .outOfScope) rfl n).symm
  have hturn : n ∈ (stage 5 g).idsWhere fun e => !e.isOutOfScope && isPoint e := by
    rw [Graph.mem_idsWhere, hsame, hscope, isPoint_stage hpoint, (agree_stage 5 g).size]
    rw [Rule.size_applyAll] at hlt
    exact ⟨hlt, rfl⟩
  rw [Rule.size_applyAll] at hlt
  exact (has_detected (k := 5) rfl g n).mpr (Or.inr ⟨hturn, hlt⟩)

/-- When all rules have been applied, every rule is settled, and none of them reads what hotspot
detection writes. -/
theorem settled_detected (g : Graph) :
    ∀ r ∈ rules, r.Settled (Rule.applyAll rules g) ∧ r.Reads Trait.IsCold := by
  have hrule : ∀ {S : Trait → Prop} {k : Nat} {r : Rule}, rules[k]? = some r → r.Reads S →
      (∀ r' ∈ rules.drop k, ¬ S r'.trait) → (∀ t, S t → t.IsCold) →
      r.Settled (Rule.applyAll rules g) ∧ r.Reads Trait.IsCold :=
    fun hk hreads hrest hcold =>
      ⟨Rule.settled_of_reads nodup_traits hk hreads hrest, hreads.mono hcold⟩
  have hmetric : ∀ {k : Nat} {r : Rule}, rules[k]? = some r → r.Reads Trait.IsGiven →
      r.Settled (Rule.applyAll rules g) ∧ r.Reads Trait.IsCold :=
    fun hk hreads => hrule hk hreads
      (fun r' hr' => not_isGiven_of_mem_rules r' (List.mem_of_mem_drop hr')) Trait.isCold_of_isGiven
  intro r hr
  simp only [rules, List.mem_cons, List.not_mem_nil, or_false] at hr
  rcases hr with rfl | rfl | rfl | rfl | rfl | rfl | rfl | rfl | rfl | rfl | rfl | rfl | rfl | rfl
  · exact hmetric (k := 0) rfl Rule.reads_methodPoints
  · exact hmetric (k := 1) rfl Rule.reads_methodVariants
  · exact hmetric (k := 2) rfl Rule.reads_constructorPoints
  · exact hmetric (k := 3) rfl Rule.reads_constructorVariants
  · exact hmetric (k := 4) rfl Rule.reads_typeVariants
  · refine ⟨settled_points g, Rule.reads_points.mono ?_⟩
    rintro t (h | rfl | rfl)
    · exact Trait.isCold_of_isGiven t h
    · decide
    · decide
  · refine hrule (k := 6) rfl Rule.reads_methodLevelPoints
      (by simp [rules, Trait.IsGiven, Label.isFinding]) ?_
    rintro t (h | rfl | rfl)
    · exact Trait.isCold_of_isGiven t h
    · decide
    · decide
  · refine hrule (k := 7) rfl Rule.reads_variants
      (by simp [rules, Trait.IsGiven, Label.isFinding]) ?_
    rintro t (h | rfl)
    · exact Trait.isCold_of_isGiven t h
    · decide
  · exact hmetric (k := 8) rfl (Rule.reads_publicMembers _ _)
  · exact hmetric (k := 9) rfl (Rule.reads_publicMembers _ _)
  · exact hmetric (k := 10) rfl Rule.reads_compositions
  · exact hmetric (k := 11) rfl Rule.reads_allMethods
  · refine hrule (k := 12) rfl Rule.reads_compositionStrategies
      (by simp [rules, Trait.IsGiven, Label.isFinding]) ?_
    rintro t (h | rfl)
    · exact Trait.isCold_of_isGiven t h
    · decide
  · refine hrule (k := 13) rfl Rule.reads_dense (by simp [rules]) ?_
    rintro t rfl
    decide

/-- Detection changes no graph that differs from a detected one only in what hotspot detection
writes. -/
theorem applyAll_rules_eq {h : Graph} (H : (Rule.applyAll rules g).Agree Trait.IsCold h) :
    Rule.applyAll rules h = h := by
  refine Rule.applyAll_eq_self fun r hr => ?_
  have hcold : ∀ r ∈ rules, r.trait.IsCold := by simp [rules, Trait.IsCold]
  obtain ⟨hsettled, hreads⟩ := settled_detected g r hr
  exact hsettled.congr hreads (hcold r hr) H

end Variation

namespace Hotspot

variable {g : Graph} {threshold : Nat}

/-! ### Hotspots -/

/-- In a graph that agrees with `g` on what aggregation looks at, and whose flags are up at
aggregated nodes of `g` only, no other node is aggregated. -/
theorem Aggregated.of_agree {S : Trait → Prop} {h : Graph} (H : g.Agree S h)
    (hpoint : S (.label .variationPoint)) (hvariant : S (.label .variant))
    (hflags : ∀ n, (h.entity n).flag .aggregation = true → Aggregated g threshold n)
    {n : NodeId} (hn : Aggregated h threshold n) : Aggregated g threshold n := by
  induction hn with
  | flagged hflag => exact hflags _ hflag
  | group hv hlarge hmem =>
      rw [H.has hpoint] at hv
      rw [H.reachable] at hlarge hmem
      exact .group hv hlarge hmem
  | variant _ hinherits ht ih =>
      obtain ⟨r, hr, hstep⟩ := hinherits
      rw [H.has hvariant] at ht
      exact .variant ih ⟨r, hr, H.step.mp hstep⟩ ht

end Hotspot

/-- The rule for aggregations reads everything but the label for hotspots. -/
theorem Rule.reads_aggregations (threshold : Nat) :
    (aggregations threshold).Reads (· ≠ .label .hotspot) := by
  have hhalf : ∀ {g h : Graph}, g.Agree (· ≠ .label .hotspot) h → ∀ n,
      Hotspot.Aggregated h threshold n → Hotspot.Aggregated g threshold n := by
    intro g h H n
    refine Hotspot.Aggregated.of_agree H (by decide) (by decide) fun m hm => ?_
    rw [Entity.flag_eq_true_iff, H.property? (by decide)] at hm
    exact .flagged (Entity.flag_eq_true_iff.mpr hm)
  intro g h H
  refine ⟨?_, fun _ => rfl⟩
  simp only [H.size]
  exact List.filter_congr fun n _ => decide_eq_decide.mpr ⟨hhalf H n, hhalf H.symm n⟩

namespace Hotspot

variable {g : Graph} {threshold : Nat}

/-- What aggregation flags, it would flag again. -/
theorem settled_aggregations (hg : g.Closed) (threshold : Nat) :
    (Rule.aggregations threshold).Settled ((Rule.aggregations threshold).apply g) := by
  intro n hn _
  have hagg : Aggregated ((Rule.aggregations threshold).apply g) threshold n := by
    simpa using (List.mem_filter.mp hn).2
  have H : g.Agree Trait.IsLabel ((Rule.aggregations threshold).apply g) :=
    Rule.agree_apply _ not_false g
  have hagg' : Aggregated g threshold n :=
    hagg.of_agree H trivial trivial fun m hm => (flag_aggregations hg threshold m).mp hm
  exact Entity.flag_eq_true_iff.mp ((flag_aggregations hg threshold n).mpr hagg')

/-- When all rules have been applied, every rule is settled. -/
theorem settled_detected (hg : g.Closed) (t : HotspotThresholds) :
    ∀ r ∈ rules t, r.Settled (Rule.applyAll (rules t) g) := by
  intro r hr
  simp only [rules, List.mem_cons, List.not_mem_nil, or_false] at hr
  rcases hr with rfl | rfl | rfl
  · exact Rule.settled_of_reads (nodup_traits t) (k := 0) rfl (Rule.reads_crowds _)
      (not_isCold_of_mem_rules t)
  · have hturn := settled_aggregations (Rule.closed_applyAll hg ((rules t).take 1))
      t.aggregations.toNat
    refine hturn.lasts (nodup_traits t) (k := 1) rfl (Rule.reads_aggregations _) ?_
    simp [rules, Rule.hotspots, Rule.trait]
  · refine Rule.settled_of_reads (nodup_traits t) (k := 2) rfl Rule.reads_hotspots ?_
    simp [rules, Rule.hotspots, Rule.trait]

/-- Hotspot detection changes nothing the second time. -/
theorem applyAll_rules_eq (hg : g.Closed) (t : HotspotThresholds) :
    Rule.applyAll (rules t) (Rule.applyAll (rules t) g) = Rule.applyAll (rules t) g :=
  Rule.applyAll_eq_self (settled_detected hg t)

end Hotspot

/-! ### Both -/

/-- A program succeeds, and a second run leaves the graph as the first left it. -/
def Session.IdempotentAt (x : Session Unit) (g : Graph) : Prop :=
  ∃ h, Yields x g () h ∧ Yields x h () h

variable {g : Graph}

/-- A program that applies rules twice to no further effect is idempotent. -/
theorem Session.Applies.idempotentAt {x : Session Unit} {rules : List Rule}
    (hx : Applies x rules) (hg : g.Closed)
    (htwice : Rule.applyAll rules (Rule.applyAll rules g) = Rule.applyAll rules g) :
    IdempotentAt x g := by
  have hagain := hx (Rule.closed_applyAll hg rules)
  rw [htwice] at hagain
  exact ⟨_, hx hg, hagain⟩

/-- One program after another applies the rules of both. -/
theorem Session.Applies.append {x y : Session Unit} {rules rules' : List Rule}
    (hx : Applies x rules) (hy : Applies y rules') : Applies (do x; y) (rules ++ rules') := by
  intro g hg
  rw [Rule.applyAll_append]
  exact (hx hg).bind (hy (Rule.closed_applyAll hg rules))

/-- Both detections change nothing the second time. -/
theorem applyAll_detection_eq (hg : g.Closed) (t : HotspotThresholds) :
    Rule.applyAll (Variation.rules ++ Hotspot.rules t)
        (Rule.applyAll (Variation.rules ++ Hotspot.rules t) g) =
      Rule.applyAll (Variation.rules ++ Hotspot.rules t) g := by
  simp only [Rule.applyAll_append]
  rw [Variation.applyAll_rules_eq (Hotspot.agree_detected t _),
    Hotspot.applyAll_rules_eq (Rule.closed_applyAll hg _)]

/-- **Detection is idempotent.** On every closed graph, whatever labels and properties it carries,
and for all thresholds, a second run leaves the graph as the first left it: of the detection of
variation points and variants followed by that of hotspots, and of each alone. -/
theorem detection_idempotent (hg : g.Closed) (t : HotspotThresholds) :
    IdempotentAt (do Variation.detect; Hotspot.detect t) g ∧
      IdempotentAt Variation.detect g ∧ IdempotentAt (Hotspot.detect t) g := by
  have hvariation := Variation.applies_detect
  have hhotspot := Hotspot.applies_detect t
  refine ⟨?_, ?_, ?_⟩
  · exact (hvariation.append hhotspot).idempotentAt hg (applyAll_detection_eq hg t)
  · exact hvariation.idempotentAt hg (Variation.applyAll_rules_eq (Graph.Agree.refl _ _))
  · exact hhotspot.idempotentAt hg (Hotspot.applyAll_rules_eq hg t)

/-- An interface, a class that implements it and itself, what an earlier detection with other
thresholds may have left, and numbers whose sum wraps around. -/
def leftovers : Graph :=
  (((((((Graph.empty.addNode "Node" [.interfaceType, .compositionStrategy, .hotspot]).addNode "Leaf"
    [.classType, .variant]).addEdge 0 .implementing 1).addEdge 1 .extending 1).put 1 .aggregation
    (.bool true)).put 0 .typeVariants (.int 7)).put 0 .methodVariants (.int Int64.maxValue)).put 0
    .constructorVariants (.int 1)

theorem detection_idempotent_leftovers : leftovers.Closed ∧
    IdempotentAt (do Variation.detect; Hotspot.detect { variants := 1, aggregations := 1 })
      leftovers ∧
    IdempotentAt Variation.detect leftovers ∧
    IdempotentAt (Hotspot.detect { variants := 1, aggregations := 1 }) leftovers := by
  have hclosed : leftovers.Closed := by decide
  exact ⟨hclosed, detection_idempotent hclosed _⟩

end Variability
