import Variability.Proofs.Queries
import Mathlib.Tactic.Tauto

/-!
# Rules of detection

Detection is a sequence of rules. A rule selects some nodes by what the graph says at that moment,
and gives them one label, or a value of one property. This module treats such sequences in
general: what a rule leaves alone, what can be said of a trait that only one rule of a sequence
writes, and when a rule finds its work done.

The facts that a rule reads are a set of traits `S`, and two graphs that agree on `S` (and in
their edges and names) look the same to it (`Rule.Reads`). A rule whose traits are not written
after it sees at the end what it saw in its turn, so it would select the same nodes again and
write what is there already (`Rule.settled_of_reads`).

## Main results

* `Rule.agree_applyAll`: a sequence changes only the traits that its rules write.
* `Rule.has_applyAll_mark`, `Rule.property?_applyAll_put`: a trait that one rule writes.
* `Rule.applyAll_eq_self`: a sequence of settled rules changes nothing.
* `Rule.settled_of_reads`: a rule is settled at the end of its sequence.
-/

namespace Variability

/-- What detection can find out about a node: a label or the value of a property. -/
inductive Trait where
  | label (l : Label)
  | property (p : Property)
  deriving DecidableEq

/-- The labels that a pattern asks about. -/
def HopPattern.labels (pattern : HopPattern) : List Label :=
  pattern.source.all ++ pattern.source.any ++ pattern.source.none ++
    (pattern.target.all ++ pattern.target.any ++ pattern.target.none)

/-! ### Agreement -/

namespace Graph

/-- Two graphs with the same nodes, names and edges whose nodes do not differ in the traits of
`S`. -/
structure Agree (S : Trait → Prop) (g h : Graph) : Prop where
  size : h.size = g.size
  edges : h.edges = g.edges
  name : ∀ id, (h.entity id).name = (g.entity id).name
  has : ∀ {l}, S (.label l) → ∀ id, (h.entity id).has l = (g.entity id).has l
  property? : ∀ {p}, S (.property p) → ∀ id,
    (h.entity id).property? p = (g.entity id).property? p

namespace Agree

variable {S T : Trait → Prop} {g h k : Graph}

theorem refl (S : Trait → Prop) (g : Graph) : Agree S g g :=
  ⟨rfl, rfl, fun _ => rfl, fun _ _ => rfl, fun _ _ => rfl⟩

theorem symm (H : Agree S g h) : Agree S h g :=
  ⟨H.size.symm, H.edges.symm, fun id => (H.name id).symm, fun hl id => (H.has hl id).symm,
    fun hp id => (H.property? hp id).symm⟩

theorem trans (H : Agree S g h) (K : Agree S h k) : Agree S g k :=
  ⟨K.size.trans H.size, K.edges.trans H.edges, fun id => (K.name id).trans (H.name id),
    fun hl id => (K.has hl id).trans (H.has hl id),
    fun hp id => (K.property? hp id).trans (H.property? hp id)⟩

/-- Agreement on more is agreement on less. -/
theorem mono (H : Agree S g h) (hTS : ∀ t, T t → S t) : Agree T g h :=
  ⟨H.size, H.edges, H.name, fun hl => H.has (hTS _ hl), fun hp => H.property? (hTS _ hp)⟩

theorem closed (H : Agree S g h) (hg : g.Closed) : h.Closed := by
  unfold Closed
  rw [H.edges, H.size]
  exact hg

theorem step (H : Agree S g h) {r : Relation} {s t : NodeId} :
    h.Step r s t ↔ g.Step r s t := by
  unfold Step
  rw [H.edges]

theorem targets (H : Agree S g h) (relations : List Relation) (id : NodeId) :
    h.targets relations id = g.targets relations id := by
  unfold Graph.targets
  rw [edgesFrom_eq, edgesFrom_eq, H.edges]

theorem reachable (H : Agree S g h) (relation : Relation) (start : NodeId) :
    h.reachable relation start = g.reachable relation start := by
  have hsize : h.entities.size = g.entities.size := H.size
  have hsuccessors : h.successors relation = g.successors relation := by
    funext id
    unfold successors
    rw [edgesFrom_eq, edgesFrom_eq, H.edges]
  unfold Graph.reachable
  rw [hsize, hsuccessors]

/-- Graphs that agree on some labels count the neighbours with these labels alike. -/
theorem memberCount (H : Agree S g h) {ls : List Label} (hls : ∀ l ∈ ls, S (.label l))
    (id : NodeId) : h.memberCount id ls = g.memberCount id ls := by
  unfold Graph.memberCount
  rw [H.targets]
  refine List.countP_congr fun m _ => ?_
  rw [List.all_eq_true, List.all_eq_true]
  exact forall₂_congr fun l hl => by rw [H.has (hls l hl)]

theorem variantCount (H : Agree S g h) (hclass : S (.label .classType)) (id : NodeId) :
    h.variantCount id = g.variantCount id := by
  unfold Graph.variantCount
  rw [H.targets]
  exact List.countP_congr fun m _ => by rw [H.has hclass]

theorem isType (H : Agree S g h) (hclass : S (.label .classType))
    (hinterface : S (.label .interfaceType)) (id : NodeId) :
    (h.entity id).isType = (g.entity id).isType := by
  rw [Entity.isType, Entity.isType, H.has hclass, H.has hinterface]

theorem memberNames (H : Agree S g h) {l : Label} (hl : S (.label l)) (id : NodeId) :
    h.memberNames id l = g.memberNames id l := by
  unfold Graph.memberNames
  rw [H.targets, List.filter_congr fun m _ => H.has hl m]
  exact List.map_congr_left fun m _ => H.name m

theorem count (H : Agree S g h) {p : Property} (hp : S (.property p)) (id : NodeId) :
    (h.entity id).count p = (g.entity id).count p := by
  rw [Entity.count, Entity.count, Entity.int?, Entity.int?, H.property? hp]

theorem flag (H : Agree S g h) {p : Property} (hp : S (.property p)) (id : NodeId) :
    (h.entity id).flag p = (g.entity id).flag p := by
  rw [Entity.flag, Entity.flag, H.property? hp]

/-- Graphs of one size select the same nodes by a condition on which they agree. -/
theorem idsWhere (H : Agree S g h) {c : Entity → Bool}
    (hc : ∀ id, c (h.entity id) = c (g.entity id)) : h.idsWhere c = g.idsWhere c := by
  unfold Graph.idsWhere
  rw [H.size]
  exact List.filter_congr fun id _ => hc id

/-- Graphs that agree on the labels of a condition accept the same nodes. -/
theorem accepts (H : Agree S g h) {f : NodeFilter}
    (hf : ∀ l, l ∈ f.all ∨ l ∈ f.any ∨ l ∈ f.none → S (.label l)) (id : NodeId) :
    f.accepts (h.entity id) = f.accepts (g.entity id) := by
  have hall : f.all.all (h.entity id).has = f.all.all (g.entity id).has := by
    rw [Bool.eq_iff_iff, List.all_eq_true, List.all_eq_true]
    exact forall₂_congr fun l hl => by rw [H.has (hf l (Or.inl hl))]
  have hany : f.any.any (h.entity id).has = f.any.any (g.entity id).has := by
    rw [Bool.eq_iff_iff, List.any_eq_true, List.any_eq_true]
    exact exists_congr fun l => and_congr_right fun hl => by
      rw [H.has (hf l (Or.inr (Or.inl hl)))]
  have hnone : f.none.any (h.entity id).has = f.none.any (g.entity id).has := by
    rw [Bool.eq_iff_iff, List.any_eq_true, List.any_eq_true]
    exact exists_congr fun l => and_congr_right fun hl => by
      rw [H.has (hf l (Or.inr (Or.inr hl)))]
  rw [NodeFilter.accepts, NodeFilter.accepts, hall, hany, hnone]

end Agree

/-- Graphs that agree on the labels of a pattern have the same edges of it. -/
theorem Agree.edgesOf {S : Trait → Prop} {g h : Graph} (H : Agree S g h) {pattern : HopPattern}
    (hS : ∀ l ∈ pattern.labels, S (.label l)) : h.edgesOf pattern = g.edgesOf pattern := by
  unfold Graph.edgesOf
  rw [H.edges]
  refine List.filter_congr fun e _ => ?_
  have hsource := H.accepts (f := pattern.source)
    (fun l hl => hS l (by simp [HopPattern.labels]; tauto)) e.source
  have htarget := H.accepts (f := pattern.target)
    (fun l hl => hS l (by simp [HopPattern.labels]; tauto)) e.target
  rw [fits, fits, hsource, htarget]

end Graph

/-! ### Rules -/

/-- One step of detection: the nodes it selects get a label, or a value of a property. -/
inductive Rule where
  | mark (l : Label) (selects : Graph → List NodeId)
  | put (p : Property) (selects : Graph → List NodeId) (value : Graph → NodeId → Value)

namespace Rule

/-- The trait that a rule writes. -/
def trait : Rule → Trait
  | mark l _ => .label l
  | put p _ _ => .property p

/-- The graph after a rule. -/
def apply : Rule → Graph → Graph
  | mark l selects, g => g.labelAll l (selects g)
  | put p selects value, g => g.putAll p (value g) (selects g)

/-- The graph after some rules in turn. -/
def applyAll (rules : List Rule) (g : Graph) : Graph := rules.foldl (fun h r => r.apply h) g

/-- What a rule does depends on the traits of `S` only. -/
def Reads (S : Trait → Prop) : Rule → Prop
  | mark _ selects => ∀ g h, g.Agree S h → selects h = selects g
  | put _ selects value => ∀ g h, g.Agree S h →
      selects h = selects g ∧ ∀ id, value h id = value g id

/-- A rule finds its work done: every selected node has what the rule would give it. -/
def Settled : Rule → Graph → Prop
  | mark l selects, g => ∀ id ∈ selects g, id < g.size → (g.entity id).has l = true
  | put p selects value, g =>
      ∀ id ∈ selects g, id < g.size → (g.entity id).property? p = some (value g id)

variable {S T : Trait → Prop} {g h : Graph} {r : Rule} {rules : List Rule}

/-- A rule changes the trait that it writes and nothing else. -/
theorem agree_apply (r : Rule) (hr : ¬ S r.trait) (g : Graph) : g.Agree S (r.apply g) := by
  cases r with
  | mark l selects =>
      refine ⟨by simp [apply], by simp [apply], by simp [apply], ?_, by simp [apply]⟩
      intro l' hl' id
      have hne : l' ≠ l := fun heq => hr (heq ▸ hl')
      simp [apply, hne]
  | put p selects value =>
      refine ⟨by simp [apply], by simp [apply], by simp [apply], by simp [apply], ?_⟩
      intro p' hp' id
      have hne : p ≠ p' := fun heq => hr (heq ▸ hp')
      simp [apply, hne]

@[simp] theorem size_apply (r : Rule) (g : Graph) : (r.apply g).size = g.size :=
  (agree_apply (S := fun _ => False) r id g).size

theorem applyAll_cons (r : Rule) (rules : List Rule) (g : Graph) :
    applyAll (r :: rules) g = applyAll rules (r.apply g) := rfl

theorem applyAll_append (pre post : List Rule) (g : Graph) :
    applyAll (pre ++ post) g = applyAll post (applyAll pre g) :=
  List.foldl_append

/-- A sequence changes only the traits that its rules write. -/
theorem agree_applyAll (hrules : ∀ r ∈ rules, ¬ S r.trait) (g : Graph) :
    g.Agree S (applyAll rules g) := by
  induction rules generalizing g with
  | nil => exact Graph.Agree.refl S g
  | cons r rules ih =>
      have hr := agree_apply r (hrules r List.mem_cons_self) g
      exact hr.trans (ih (fun r' hr' => hrules r' (List.mem_cons_of_mem _ hr')) _)

@[simp] theorem size_applyAll (rules : List Rule) (g : Graph) :
    (applyAll rules g).size = g.size :=
  (agree_applyAll (S := fun _ => False) (fun _ _ => id) g).size

theorem closed_applyAll (hg : g.Closed) (rules : List Rule) : (applyAll rules g).Closed :=
  (agree_applyAll (S := fun _ => False) (fun _ _ => id) g).closed hg

/-- A sequence around one of its rules. -/
theorem eq_append_of_getElem? {k : Nat} (hk : rules[k]? = some r) :
    rules = rules.take k ++ r :: rules.drop (k + 1) := by
  obtain ⟨hlt, hget⟩ := List.getElem?_eq_some_iff.mp hk
  rw [← hget, ← List.drop_eq_getElem_cons hlt, List.take_append_drop]

/-- In a sequence whose rules write distinct traits, no other rule writes the trait of a rule. -/
theorem trait_ne_of_nodup (hnodup : (rules.map trait).Nodup) {k : Nat}
    (hk : rules[k]? = some r) :
    (∀ r' ∈ rules.take k, r'.trait ≠ r.trait) ∧
      ∀ r' ∈ rules.drop (k + 1), r'.trait ≠ r.trait := by
  rw [eq_append_of_getElem? hk, List.map_append, List.map_cons, List.nodup_append,
    List.nodup_cons] at hnodup
  obtain ⟨-, ⟨hpost, -⟩, hpre⟩ := hnodup
  constructor
  · intro r' hr'
    exact hpre _ (List.mem_map_of_mem hr') _ List.mem_cons_self
  · intro r' hr' heq
    exact hpost (heq ▸ List.mem_map_of_mem hr')

/-- From the turn of a rule on, a sequence changes only the traits that the remaining rules
write. -/
theorem agree_take (k : Nat) (hrest : ∀ r ∈ rules.drop k, ¬ S r.trait) (g : Graph) :
    (applyAll (rules.take k) g).Agree S (applyAll rules g) := by
  have h := agree_applyAll hrest (applyAll (rules.take k) g)
  rwa [← applyAll_append, List.take_append_drop] at h

/-- A label that one rule of a sequence gives: a node has it in the end if it had it before, or
was selected in the turn of the rule. -/
theorem has_applyAll_mark (hnodup : (rules.map trait).Nodup) {k : Nat} {l : Label}
    {selects : Graph → List NodeId} (hk : rules[k]? = some (mark l selects)) (g : Graph)
    (id : NodeId) :
    ((applyAll rules g).entity id).has l = true ↔
      (g.entity id).has l = true ∨
        (id ∈ selects (applyAll (rules.take k) g) ∧ id < g.size) := by
  obtain ⟨hpre, hpost⟩ := trait_ne_of_nodup hnodup hk
  have hbefore := agree_applyAll (S := fun t => t = .label l) hpre g
  have hafter := agree_applyAll (S := fun t => t = .label l) hpost
    ((mark l selects).apply (applyAll (rules.take k) g))
  rw [eq_append_of_getElem? hk, applyAll_append, applyAll_cons, hafter.has rfl,
    ← eq_append_of_getElem? hk]
  simp [apply, hbefore.has rfl]

/-- A property that one rule of a sequence sets: a node has the value of the rule if it was
selected in its turn, and otherwise what it had before. -/
theorem property?_applyAll_put (hnodup : (rules.map trait).Nodup) {k : Nat} {p : Property}
    {selects : Graph → List NodeId} {value : Graph → NodeId → Value}
    (hk : rules[k]? = some (put p selects value)) (g : Graph) (id : NodeId) :
    ((applyAll rules g).entity id).property? p =
      if id ∈ selects (applyAll (rules.take k) g) ∧ id < g.size then
        some (value (applyAll (rules.take k) g) id)
      else (g.entity id).property? p := by
  obtain ⟨hpre, hpost⟩ := trait_ne_of_nodup hnodup hk
  have hbefore := agree_applyAll (S := fun t => t = .property p) hpre g
  have hafter := agree_applyAll (S := fun t => t = .property p) hpost
    ((put p selects value).apply (applyAll (rules.take k) g))
  rw [eq_append_of_getElem? hk, applyAll_append, applyAll_cons, hafter.property? rfl,
    ← eq_append_of_getElem? hk]
  simp [apply, hbefore.property? rfl]

/-! ### Settled rules -/

/-- A settled rule changes nothing. -/
theorem Settled.apply_eq (hr : r.Settled g) : r.apply g = g := by
  cases r with
  | mark l selects => exact Graph.labelAll_eq_self hr
  | put p selects value => exact Graph.putAll_eq_self hr

/-- A sequence of settled rules changes nothing. -/
theorem applyAll_eq_self (hrules : ∀ r ∈ rules, r.Settled g) : applyAll rules g = g := by
  induction rules with
  | nil => rfl
  | cons r rules ih =>
      rw [applyAll_cons, (hrules r List.mem_cons_self).apply_eq]
      exact ih fun r' hr' => hrules r' (List.mem_cons_of_mem _ hr')

/-- A rule that reads some traits may be said to read more. -/
theorem Reads.mono (hreads : r.Reads S) (hST : ∀ t, S t → T t) : r.Reads T := by
  cases r with
  | mark l selects => exact fun g h H => hreads g h (H.mono hST)
  | put p selects value => exact fun g h H => hreads g h (H.mono hST)

/-- A rule that is settled in a graph is settled in any graph that agrees with it on what the rule
reads and writes. -/
theorem Settled.congr (hr : r.Settled g) (hreads : r.Reads S) (hwrites : S r.trait)
    (H : g.Agree S h) : r.Settled h := by
  cases r with
  | mark l selects =>
      intro id hid hlt
      rw [hreads g h H] at hid
      rw [H.size] at hlt
      rw [H.has hwrites]
      exact hr id hid hlt
  | put p selects value =>
      obtain ⟨hselects, hvalue⟩ := hreads g h H
      intro id hid hlt
      rw [hselects] at hid
      rw [H.size] at hlt
      rw [H.property? hwrites, hvalue]
      exact hr id hid hlt

/-- A rule is settled right after its turn, if it does not read what it writes. -/
theorem settled_apply (hreads : r.Reads S) (hself : ¬ S r.trait) : r.Settled (r.apply g) := by
  have H := agree_apply r hself g
  cases r with
  | mark l selects =>
      intro id hid hlt
      rw [hreads _ _ H] at hid
      rw [H.size] at hlt
      simp [apply, hid, hlt]
  | put p selects value =>
      obtain ⟨hselects, hvalue⟩ := hreads _ _ H
      intro id hid hlt
      rw [hselects] at hid
      rw [H.size] at hlt
      rw [hvalue]
      simp [apply, hid, hlt]

/-- **A settled rule stays settled** to the end of its sequence, if no rule after it writes what it
reads. -/
theorem Settled.lasts (hnodup : (rules.map trait).Nodup) {k : Nat} (hk : rules[k]? = some r)
    (hturn : r.Settled (r.apply (applyAll (rules.take k) g))) (hreads : r.Reads S)
    (hrest : ∀ r' ∈ rules.drop (k + 1), ¬ S r'.trait) : r.Settled (applyAll rules g) := by
  -- What the rule reads and what it has written stay until the end.
  have hpost : ∀ r' ∈ rules.drop (k + 1), ¬ (S r'.trait ∨ r'.trait = r.trait) :=
    fun r' hr' => not_or.mpr ⟨hrest r' hr', (trait_ne_of_nodup hnodup hk).2 r' hr'⟩
  have hafter := agree_applyAll (S := fun t => S t ∨ t = r.trait) hpost
    (r.apply (applyAll (rules.take k) g))
  rw [eq_append_of_getElem? hk, applyAll_append, applyAll_cons]
  have hwider : r.Reads fun t => S t ∨ t = r.trait := hreads.mono fun t => Or.inl
  exact hturn.congr hwider (Or.inr rfl) hafter

/-- **A rule is settled at the end of its sequence**, if no rule from its turn on writes what it
reads. -/
theorem settled_of_reads (hnodup : (rules.map trait).Nodup) {k : Nat}
    (hk : rules[k]? = some r) (hreads : r.Reads S)
    (hrest : ∀ r' ∈ rules.drop k, ¬ S r'.trait) : r.Settled (applyAll rules g) := by
  have hdrop : rules.drop k = r :: rules.drop (k + 1) := by
    obtain ⟨hlen, hget⟩ := List.getElem?_eq_some_iff.mp hk
    rw [← hget, ← List.drop_eq_getElem_cons hlen]
  rw [hdrop] at hrest
  have hturn : r.Settled (r.apply (applyAll (rules.take k) g)) :=
    settled_apply hreads (hrest r List.mem_cons_self)
  exact hturn.lasts hnodup hk hreads fun r' hr' => hrest r' (List.mem_cons_of_mem _ hr')

end Rule

end Variability
