import Variability.Proofs.Representation
import Variability.Proofs.TypeLevel

/-!
# Templates and factories

The third and the fourth sweep decide while the graph is still being built: they count the variants
of a type and look for its edges when a call or a return is met, and other events of the same sweep
and of later ones bring nodes that were not there. This module shows that it makes no difference.
All edges but compositions are there after the second sweep (`Graph.Settles`), so nodes that come
later have none but compositions, and what decides on a template or a factory can be read off the
graph in the end, for every list of events.

## Main results

* `Graph.Settles.classBelow_iff`, `Effect.isProduct_iff`: what is asked on the way is answered as in
  the end.
* `Effect.has_template_roles`, `Effect.has_factory_factories`: what one event adds.
* `Analysis.run_designPatterns`: which nodes are templates and factories after an analysis.
-/

namespace Variability

open Session
open Sweep (Context)

/-! ### Settled edges -/

namespace Graph

variable {g h k : Graph} {n m : NodeId} {name : String}

/-- The node is the first that has the name. -/
def FirstNamed (g : Graph) (name : String) (n : NodeId) : Prop :=
  n < g.size ∧ (g.entity n).name = name ∧ ∀ m < n, (g.entity m).name ≠ name

theorem named_eq_some_iff {p : Node} :
    g.named name = some p ↔ p = g.nodeAt p.id ∧ g.FirstNamed name p.id := by
  simp only [named, firstWhere_eq_some_iff, FirstNamed, beq_iff_eq, beq_eq_false_iff_ne, ne_eq]
  tauto

/-- Nodes that are added later come after the first with a name. -/
theorem Grown.firstNamed_iff (H : g.Grown h) (hn : n < g.size) :
    h.FirstNamed name n ↔ g.FirstNamed name n := by
  have hname : ∀ m ≤ n, (h.entity m).name = (g.entity m).name :=
    fun m hm => H.name (Nat.lt_of_le_of_lt hm hn)
  have hfirst : (∀ m < n, (h.entity m).name ≠ name) ↔ ∀ m < n, (g.entity m).name ≠ name :=
    forall₂_congr fun m hm => by rw [hname m (Nat.le_of_lt hm)]
  simp only [FirstNamed, hfirst, hname n (Nat.le_refl n), hn, H.lt hn]

/-- `h` has grown from `g`, and all edges of `h` but compositions are in `g` already. -/
structure Settles (g h : Graph) : Prop where
  grown : g.Grown h
  step : ∀ {r : Relation} {s t : NodeId}, r ≠ .composing → h.Step r s t → g.Step r s t

/-- What is between a graph and one that it settles settles this as well. -/
theorem Settles.between (H : g.Settles k) (hbefore : g.Grown h) (hafter : h.Grown k) :
    h.Settles k :=
  ⟨hafter, fun hr hstep => hbefore.step (H.step hr hstep)⟩

theorem Settles.inherits_iff (H : g.Settles h) : h.Inherits n m ↔ g.Inherits n m := by
  have hinheritance : ∀ r ∈ Relation.inheritance, r ≠ .composing := by decide
  constructor
  · rintro ⟨r, hr, hstep⟩
    exact ⟨r, hr, H.step (hinheritance r hr) hstep⟩
  · rintro ⟨r, hr, hstep⟩
    exact ⟨r, hr, H.grown.step hstep⟩

/-- No type gets a subclass later on. -/
theorem Settles.classBelow_iff (H : g.Settles h) (hg : g.Closed) :
    h.ClassBelow n m ↔ g.ClassBelow n m := by
  rw [ClassBelow, ClassBelow, H.inherits_iff]
  refine and_congr_right fun hinherits => ?_
  obtain ⟨r, -, hstep⟩ := hinherits
  rw [H.grown.keeps.has m (hg.step hstep).2 .classType rfl]

/-- The first node named `base` has an edge other than a composition to the first node named
`product`, and two subclasses. -/
def HasProduct (g : Graph) (base product : String) : Prop :=
  ∃ p q, g.FirstNamed base p ∧ g.FirstNamed product q ∧ (∃ r ≠ .composing, g.Step r p q) ∧
    ∃ a b, a ≠ b ∧ g.ClassBelow p a ∧ g.ClassBelow p b

/-- The node that was asked for is the one that has the name and the kind later on. -/
theorem Sound.eq_idFor_iff (hh : h.Sound) {kind : EntityKind} (hkind : kind.isType = true)
    {onCreate : List Label} (H : g.Grown (g.ask name kind onCreate []))
    (K : (g.ask name kind onCreate []).Grown h) :
    n = g.idFor name kind ↔ isNamed name kind (h.entity n) = true := by
  have hasked := K.isNamed (isNamed_idFor H)
  constructor
  · rintro rfl
    exact hasked
  · intro hn
    obtain ⟨hname, hhas⟩ := (Bool.and_eq_true _ _).mp hn
    obtain ⟨hname', hhas'⟩ := (Bool.and_eq_true _ _).mp hasked
    exact hh.unique kind hkind _ _ hhas hhas' ((eq_of_beq hname).trans (eq_of_beq hname').symm)

end Graph

/-! ### Calls and returns -/

namespace Graph

/-- A call tells that a node is a template: the called method is declared by the type of the node,
which has a subclass, and the type is named so or the method is an abstract one of the type that the
call stands in. -/
structure TemplateCall (g : Graph) (c : Context) (i : Invocation) (n : NodeId) : Prop where
  declaring : isNamed i.declaring.erasure i.declaring.nodeKind (g.entity n) = true
  varies : ∃ m, g.ClassBelow n m
  template : Text.contains i.declaring.simple "Template" = true ∨
    i.isAbstract = true ∧ ∃ d, c.current? = some d ∧ d.qualified = i.declaring.erasure

/-- A declaration tells that a node is a factory: it is that of the node, and is named so. -/
structure FactoryName (g : Graph) (d : TypeDecl) (n : NodeId) : Prop where
  node : isNamed d.qualified d.nodeKind (g.entity n) = true
  factory : Text.contains d.qualified "Factory" = true

/-- A return tells that a node is a factory: a method of the type of the node returns one of several
variants of its return type. -/
def FactoryReturn (g : Graph) (s : ReturnSite) (n : NodeId) : Prop :=
  ∃ declaring result returned, s.Returns declaring result returned ∧
    isNamed declaring.erasure declaring.nodeKind (g.entity n) = true ∧
    g.HasProduct result.erasure returned.erasure

end Graph

/-! ### What an event adds -/

namespace Effect

open Variability.Graph (Settles TemplateCall FactoryName FactoryReturn)

variable {g h : Graph} {c : Context} {n : NodeId}

/-- A pattern is noted on the node that was asked for, which its name and kind tell later on. -/
theorem has_labelIf_ask {name : String} {kind : EntityKind} {onCreate : List Label} {b : Bool}
    {p : DesignPattern} (hkind : kind.isType = true) (hcreate : ∀ l ∈ onCreate, l = .outOfScope)
    (hp : Label.isNote (.pattern p) = true) (hh : h.Sound)
    (K : ((g.ask name kind onCreate []).labelIf b (g.idFor name kind) (.pattern p)).Grown h) :
    (((g.ask name kind onCreate []).labelIf b (g.idFor name kind) (.pattern p)).entity n).has
        (.pattern p) = true ↔
      (g.entity n).has (.pattern p) = true ∨
        b = true ∧ isNamed name kind (h.entity n) = true := by
  have hgrown : g.Grown (g.ask name kind onCreate []) :=
    grown_ask hkind (fun l hl => Or.inr (hcreate l hl)) (by simp)
  have hnote : (g.ask name kind onCreate []).Grown
      ((g.ask name kind onCreate []).labelIf b (g.idFor name kind) (.pattern p)) :=
    Analysis.grown_labelIf hp
  have hasked : ((g.ask name kind onCreate []).entity n).has (.pattern p) =
      (g.entity n).has (.pattern p) :=
    Graph.has_ask_of_not_mem (by simpa using fun hl => by simpa using hcreate _ hl) (by simp) n
  rw [← hh.eq_idFor_iff hkind hgrown (hnote.trans K), ← hasked]
  constructor
  · intro hn
    exact (Graph.has_of_has_labelIf hn).imp_right fun ⟨hb, hid, _⟩ => ⟨hb, hid⟩
  · rintro (hn | ⟨rfl, rfl⟩)
    · exact hnote.has_of_has hn
    · have hlt := Graph.lt_size_of_has (has_idFor g name kind onCreate)
      simp [Graph.labelIf, Graph.label, Graph.entity_update, hlt]

/-! #### Templates -/

/-- Fields make strategies and decorators only. -/
theorem has_rolesOfField (d : FieldDecl) {l : Label} (hstrategy : l ≠ .strategy)
    (hdecorator : l ≠ .decorator) :
    ((rolesOfField c d g).entity n).has l = (g.entity n).has l := by
  have hholder : ∀ (current : TypeDecl) (field : NodeId) (g : Graph),
      ((markHolder current field g).entity n).has l = (g.entity n).has l := by
    intro current field g
    unfold markHolder
    split
    · rfl
    · exact Graph.has_labelIf_of_ne hdecorator n
  unfold rolesOfField
  split
  · split
    · rfl
    · split
      · rfl
      · split
        · rfl
        · rw [markField, hholder, Graph.has_labelIf_of_ne hdecorator,
            Graph.has_labelIf_of_ne hstrategy]
  · rfl

theorem isTemplateCall_iff {i : Invocation} :
    Sweep.isTemplateCall c i = true ↔ Text.contains i.declaring.simple "Template" = true ∨
      i.isAbstract = true ∧ ∃ d, c.current? = some d ∧ d.qualified = i.declaring.erasure := by
  simp only [Sweep.isTemplateCall, Bool.or_eq_true, Bool.and_eq_true, Option.any_eq_true,
    beq_iff_eq]
  tauto

/-- A call makes a template exactly where it tells so in the end. -/
theorem has_template_rolesOfCall (hg : g.Closed) (H : g.Settles h) (hh : h.Sound) (i : Invocation)
    (K : (rolesOfCall c i g).Grown h) :
    ((rolesOfCall c i g).entity n).has .template = true ↔
      (g.entity n).has .template = true ∨ h.TemplateCall c i n := by
  have hkind := i.declaring.isType_nodeKind
  have hasked : g.Grown (g.ask i.declaring.erasure i.declaring.nodeKind [.outOfScope] []) :=
    grown_ask hkind (by simp) (by simp)
  have hlater := (Analysis.grown_labelIf rfl).trans K
  have hsettles := H.between hasked hlater
  have hnode := hh.eq_idFor_iff (n := n) hkind hasked hlater
  rw [rolesOfCall, has_labelIf_ask hkind (by simp) rfl hh K]
  refine or_congr_right ?_
  rw [Bool.and_eq_true, isTemplateCall_iff, bne_iff_ne, ← Nat.pos_iff_ne_zero,
    Graph.variantCount_pos_iff]
  simp only [← hsettles.classBelow_iff (hasked.closed hg)]
  constructor
  · rintro ⟨⟨hvaries, htemplate⟩, hn⟩
    exact ⟨hn, hnode.mpr hn ▸ hvaries, htemplate⟩
  · rintro ⟨hn, hvaries, htemplate⟩
    exact ⟨⟨hnode.mpr hn ▸ hvaries, htemplate⟩, hn⟩

/-- **One event of the third sweep**: it makes a template exactly where it tells so in the end. -/
theorem has_template_roles (hg : g.Closed) (H : g.Settles h) (hh : h.Sound) (e : Event)
    (K : (roles c e g).Grown h) :
    ((roles c e g).entity n).has .template = true ↔ (g.entity n).has .template = true ∨
      ∃ i, e = .invocation (some i) ∧ h.TemplateCall c i n := by
  rcases e with _ | _ | _ | _ | d | (_ | i) | _
  case field =>
    rw [roles, has_rolesOfField d (by decide) (by decide)]
    simp
  case invocation.some =>
    refine (has_template_rolesOfCall hg H hh i K).trans ?_
    simp
  all_goals simp [roles]

/-! #### Factories -/

/-- The third sweep makes no factories. -/
theorem has_factory_roles (e : Event) :
    ((roles c e g).entity n).has .factory = (g.entity n).has .factory := by
  rcases e with _ | _ | _ | _ | d | (_ | i) | _
  case field => exact has_rolesOfField d (by decide) (by decide)
  case invocation.some =>
    rw [roles, rolesOfCall, Graph.has_labelIf_of_ne (by decide),
      Graph.has_ask_of_not_mem (by simp) (by simp)]
  all_goals rfl

/-- Whether something is a product is answered as in the end, as long as there are no compositions:
what is related later on was there when it was asked for. -/
theorem isProduct_iff {asked : Graph} (hg : g.Closed) (H : g.Settles h) (hasked : g.Grown asked)
    (hedges : asked.edges = g.edges) (K : asked.Grown h)
    (hcomposing : ∀ s t, ¬ g.Step .composing s t) {base product : String} :
    isProduct (g.named base) (asked.named product) asked = true ↔ h.HasProduct base product := by
  have hstep : ∀ {r s t}, asked.Step r s t ↔ g.Step r s t := by
    intro r s t
    rw [Graph.Step, Graph.Step, hedges]
  have hbelow : ∀ {p m}, h.ClassBelow p m ↔ asked.ClassBelow p m :=
    (H.between hasked K).classBelow_iff (hasked.closed hg)
  constructor
  · intro hproduct
    unfold isProduct at hproduct
    split at hproduct
    · rename_i p q hp hq
      obtain ⟨hrelated, hvariants⟩ := (Bool.and_eq_true _ _).mp hproduct
      obtain ⟨-, hp⟩ := Graph.named_eq_some_iff.mp hp
      obtain ⟨-, hq⟩ := Graph.named_eq_some_iff.mp hq
      obtain ⟨r, hr⟩ := Graph.isRelated_iff.mp hrelated
      have hne : r ≠ .composing := by
        rintro rfl
        exact hcomposing _ _ (hstep.mp hr)
      obtain ⟨a, b, hab, ha, hb⟩ := Graph.one_lt_variantCount_iff.mp (of_decide_eq_true hvariants)
      exact ⟨p.id, q.id, (H.grown.firstNamed_iff hp.1).mpr hp, (K.firstNamed_iff hq.1).mpr hq,
        ⟨r, hne, K.step hr⟩, a, b, hab, hbelow.mpr ha, hbelow.mpr hb⟩
    · exact absurd hproduct Bool.false_ne_true
  · rintro ⟨p, q, hp, hq, ⟨r, hr, hpq⟩, a, b, hab, ha, hb⟩
    -- Both nodes are ends of an edge that was there, and so were they.
    have hold := H.step hr hpq
    obtain ⟨hplt, hqlt⟩ := hg.step hold
    have hbase : g.named base = some (g.nodeAt p) :=
      Graph.named_eq_some_iff.mpr ⟨rfl, (H.grown.firstNamed_iff hplt).mp hp⟩
    have hfound : asked.named product = some (asked.nodeAt q) :=
      Graph.named_eq_some_iff.mpr ⟨rfl, (K.firstNamed_iff (hasked.lt hqlt)).mp hq⟩
    have hvariants : 1 < asked.variantCount p :=
      Graph.one_lt_variantCount_iff.mpr ⟨a, b, hab, hbelow.mp ha, hbelow.mp hb⟩
    rw [hbase, hfound, isProduct, Bool.and_eq_true]
    exact ⟨Graph.isRelated_iff.mpr ⟨r, hstep.mpr hold⟩, decide_eq_true hvariants⟩

theorem has_factory_factoryByName (hh : h.Sound) (d : TypeDecl)
    (K : (factoryByName d g).Grown h) :
    ((factoryByName d g).entity n).has .factory = true ↔
      (g.entity n).has .factory = true ∨ h.FactoryName d n := by
  unfold factoryByName at K ⊢
  split
  · rename_i hfactory
    rw [if_pos hfactory] at K
    refine (has_labelIf_ask (b := true) d.isType_nodeKind (by simp) rfl hh K).trans ?_
    exact or_congr_right ⟨fun ⟨_, hn⟩ => ⟨hn, hfactory⟩, fun hn => ⟨rfl, hn.node⟩⟩
  · rename_i hfactory
    exact ⟨Or.inl, fun hn => hn.resolve_right fun hn => hfactory hn.factory⟩

theorem has_factory_factoryByReturn (hg : g.Closed) (H : g.Settles h) (hh : h.Sound)
    (hcomposing : ∀ s t, ¬ g.Step .composing s t) (s : ReturnSite)
    (K : (factoryByReturn s g).Grown h) :
    ((factoryByReturn s g).entity n).has .factory = true ↔
      (g.entity n).has .factory = true ∨ h.FactoryReturn s n := by
  unfold factoryByReturn at K ⊢
  unfold FactoryReturn
  simp only [ReturnSite.returns_iff]
  cases hs : Sweep.ReturnSite.product? s with
  | none => simp
  | some triple =>
      obtain ⟨declaring, result, returned⟩ := triple
      rw [hs] at K
      have hkind := declaring.isType_nodeKind
      have hasked : g.Grown (g.ask declaring.erasure declaring.nodeKind [.outOfScope] []) :=
        grown_ask hkind (by simp) (by simp)
      have hlater := (Analysis.grown_labelIf rfl).trans K
      refine (has_labelIf_ask hkind (by simp) rfl hh K).trans (or_congr_right ?_)
      rw [isProduct_iff hg H hasked (Graph.edges_ask ..) hlater hcomposing]
      constructor
      · rintro ⟨hproduct, hn⟩
        exact ⟨declaring, result, returned, rfl, hn, hproduct⟩
      · rintro ⟨_, _, _, ⟨⟩, hn, hproduct⟩
        exact ⟨hproduct, hn⟩

/-- **One event of the fourth sweep**: it makes a factory exactly where it tells so in the end. -/
theorem has_factory_factories (hg : g.Closed) (H : g.Settles h) (hh : h.Sound)
    (hcomposing : ∀ s t, ¬ g.Step .composing s t) (e : Event) (K : (factories e g).Grown h) :
    ((factories e g).entity n).has .factory = true ↔ (g.entity n).has .factory = true ∨
      ((∃ d, e = .entered d ∧ h.FactoryName d n) ∨
        ∃ s, e = .returning s ∧ h.FactoryReturn s n) := by
  cases e with
  | entered d =>
      refine (has_factory_factoryByName hh d K).trans ?_
      simp
  | returning s =>
      refine (has_factory_factoryByReturn hg H hh hcomposing s K).trans ?_
      simp
  | _ => simp [factories]

end Effect

/-! ### Whole analyses -/

namespace Analysis

variable (units : List SourceUnit)

/-- The second sweep settles all edges but compositions. -/
theorem settles_linked : (linked units).Settles (built units) where
  grown := grown_linked_built units
  step hr hstep :=
    ((by_composing units).step_iff fun _ ha heq => hr (ha _ heq)).mp hstep

/-- There are no compositions before the fifth sweep. -/
theorem not_step_produced (s t : NodeId) : ¬ (produced units).Step .composing s t := by
  intro hstep
  have hempty := ((by_notComposing units).step_iff fun _ ha => ha).mp hstep
  simp [Graph.Step, Graph.empty] at hempty

/-- There are no patterns before the third sweep. -/
theorem has_pattern_linked (p : DesignPattern) (n : NodeId) :
    ((linked units).entity n).has (.pattern p) = false := by
  have hdeclared : ((declared units).entity n).has (.pattern p) =
      (Graph.empty.entity n).has (.pattern p) := by
    refine (by_declared units).has ?_ n
    rintro a ⟨c, e, -, ha⟩
    cases ha with
    | type d => simp [Act.labels, d.pattern_not_mem_labels p]
    | note d => exact d.pattern_not_mem_labels p
    | owner => simp [Act.labels]
    | @member d => simp [Act.labels, d.pattern_not_mem_labels]
  have hlinked : ((linked units).entity n).has (.pattern p) =
      ((declared units).entity n).has (.pattern p) := by
    refine (by_linked units).has ?_ n
    rintro a ⟨c, e, -, ha⟩
    cases ha <;> simp [Act.labels]
  rw [hlinked, hdeclared, Graph.entity_of_le (Nat.zero_le n)]
  simp [Entity.has]

/-- The node is a template by what a graph and the calls tell. -/
def IsTemplate (g : Graph) (n : NodeId) : Prop :=
  ∃ c i, (c, .invocation (some i)) ∈ Sweep.heard units ∧ g.TemplateCall c i n

/-- The node is a factory by what a graph, the declarations and the returns tell. -/
def IsFactory (g : Graph) (n : NodeId) : Prop :=
  (∃ c d, (c, .entered d) ∈ Sweep.heard units ∧ g.FactoryName d n) ∨
    ∃ c s, (c, .returning s) ∈ Sweep.heard units ∧ g.FactoryReturn s n

variable {units}

/-- From the second sweep on, every graph on the way settles the one in the end. -/
theorem settles_of_grown {g : Graph} (hbefore : (linked units).Grown g)
    (hafter : g.Grown (built units)) : g.Settles (built units) :=
  (settles_linked units).between hbefore hafter

/-- The third sweep marks the templates. -/
theorem has_template_marked (n : NodeId) :
    ((marked units).entity n).has .template = true ↔ IsTemplate units (built units) n := by
  have hclosed := (sound_linked units).closed
  have hrun : ((marked units).entity n).has .template = true ↔
      ((linked units).entity n).has .template = true ∨
        ∃ c e, (c, e) ∈ Sweep.deliveries units ∧
          ∃ i, e = .invocation (some i) ∧ (built units).TemplateCall c i n := by
    refine Sweep.acting_roles.apply_iff Sweep.building_roles
      (fun _ _ => Sweep.isHandled_of_mem_deliveries) hclosed
      (I := fun g => (g.entity n).has .template = true) fun c e _ g hbefore hevent hlater => ?_
    have hafter := hlater.trans (grown_marked_built units)
    exact Effect.has_template_roles (hbefore.closed hclosed)
      (settles_of_grown hbefore (hevent.trans hafter)) (sound_built units) e hafter
  rw [hrun, has_pattern_linked, IsTemplate, Sweep.heard_eq_deliveries]
  constructor
  · rintro (hn | ⟨c, _, hmem, i, rfl, hn⟩)
    · exact absurd hn Bool.false_ne_true
    · exact ⟨c, i, hmem, hn⟩
  · rintro ⟨c, i, hmem, hn⟩
    exact Or.inr ⟨c, _, hmem, i, rfl, hn⟩

/-- The fourth sweep marks the factories. -/
theorem has_factory_produced (n : NodeId) :
    ((produced units).entity n).has .factory = true ↔ IsFactory units (built units) n := by
  have hclosed := (sound_marked units).closed
  have hmarked : ((marked units).entity n).has .factory = false :=
    (Sweep.acting_roles.apply_induction Sweep.building_roles
      (fun _ _ => Sweep.isHandled_of_mem_deliveries) (sound_linked units).closed
      (I := fun g => (g.entity n).has .factory = false) (has_pattern_linked units .factory n)
      fun c e _ g _ hg => (Effect.has_factory_roles e).trans hg).1
  have hrun : ((produced units).entity n).has .factory = true ↔
      ((marked units).entity n).has .factory = true ∨
        ∃ c e, (c, e) ∈ Sweep.deliveries units ∧
          ((∃ d, e = .entered d ∧ (built units).FactoryName d n) ∨
            ∃ s, e = .returning s ∧ (built units).FactoryReturn s n) := by
    refine Sweep.acting_factories.apply_iff Sweep.building_factories
      (fun _ _ => Sweep.isHandled_of_mem_deliveries) hclosed
      (I := fun g => (g.entity n).has .factory = true)
      (Q := fun _ e => (∃ d, e = .entered d ∧ (built units).FactoryName d n) ∨
        ∃ s, e = .returning s ∧ (built units).FactoryReturn s n)
      fun c e _ g hbefore hevent hlater => ?_
    have hafter := hlater.trans (grown_built units)
    have hcomposing : ∀ s t, ¬ g.Step .composing s t := fun s t hstep =>
      not_step_produced units s t ((hevent.trans hlater).step hstep)
    exact Effect.has_factory_factories (hbefore.closed hclosed)
      (settles_of_grown ((grown_marked units).trans hbefore) (hevent.trans hafter))
      (sound_built units) hcomposing e hafter
  rw [hrun, hmarked, IsFactory, Sweep.heard_eq_deliveries]
  constructor
  · rintro (hn | ⟨c, _, hmem, ⟨d, rfl, hn⟩ | ⟨s, rfl, hn⟩⟩)
    · exact absurd hn Bool.false_ne_true
    · exact Or.inl ⟨c, d, hmem, hn⟩
    · exact Or.inr ⟨c, s, hmem, hn⟩
  · rintro (⟨c, d, hmem, hn⟩ | ⟨c, s, hmem, hn⟩)
    · exact Or.inr ⟨c, _, hmem, Or.inl ⟨d, rfl, hn⟩⟩
    · exact Or.inr ⟨c, _, hmem, Or.inr ⟨s, rfl, hn⟩⟩

/-- The fifth sweep makes no patterns. -/
theorem has_pattern_built (p : DesignPattern) (n : NodeId) :
    ((built units).entity n).has (.pattern p) = ((produced units).entity n).has (.pattern p) := by
  refine (by_built units).has ?_ n
  rintro a ⟨c, e, -, ha⟩
  cases ha <;> simp [Act.labels]

/-- The fourth sweep makes no templates. -/
theorem has_template_produced (n : NodeId) :
    ((produced units).entity n).has .template = ((marked units).entity n).has .template := by
  refine (by_produced units).has ?_ n
  rintro a ⟨c, e, -, ha⟩
  cases ha <;> simp [Act.labels]

end Analysis

/-! ### After detection -/

namespace Graph

variable {g h : Graph} {n : NodeId}

theorem Agree.isNamed (H : g.Agree Trait.IsGiven h) (name : String) (k : EntityKind) (n : NodeId) :
    Session.isNamed name k (h.entity n) = Session.isNamed name k (g.entity n) := by
  rw [Session.isNamed, Session.isNamed, H.name, H.has (l := .kind k) rfl]

theorem ClassBelow.agree (H : g.Agree Trait.IsGiven h) {m : NodeId} (hm : g.ClassBelow n m) :
    h.ClassBelow n m := by
  obtain ⟨⟨r, hr, hstep⟩, hclass⟩ := hm
  exact ⟨⟨r, hr, H.step.mpr hstep⟩, (H.has (l := .classType) rfl m).trans hclass⟩

theorem FirstNamed.agree (H : g.Agree Trait.IsGiven h) {name : String} (hn : g.FirstNamed name n) :
    h.FirstNamed name n := by
  obtain ⟨hlt, hname, hfirst⟩ := hn
  exact ⟨H.size ▸ hlt, (H.name n).trans hname, fun m hm => H.name m ▸ hfirst m hm⟩

theorem HasProduct.agree (H : g.Agree Trait.IsGiven h) {base product : String}
    (hproduct : g.HasProduct base product) : h.HasProduct base product := by
  obtain ⟨p, q, hp, hq, ⟨r, hr, hstep⟩, a, b, hab, ha, hb⟩ := hproduct
  exact ⟨p, q, hp.agree H, hq.agree H, ⟨r, hr, H.step.mpr hstep⟩, a, b, hab, ha.agree H,
    hb.agree H⟩

end Graph

namespace Analysis

variable {units : List SourceUnit} {g h : Graph} {n : NodeId}

theorem IsTemplate.agree (H : g.Agree Trait.IsGiven h) (hn : IsTemplate units g n) :
    IsTemplate units h n := by
  obtain ⟨c, i, hmem, hdeclaring, ⟨m, hm⟩, htemplate⟩ := hn
  exact ⟨c, i, hmem, (H.isNamed ..).trans hdeclaring, ⟨m, hm.agree H⟩, htemplate⟩

theorem IsFactory.agree (H : g.Agree Trait.IsGiven h) (hn : IsFactory units g n) :
    IsFactory units h n := by
  rcases hn with ⟨c, d, hmem, hnode, hfactory⟩ |
    ⟨c, s, hmem, declaring, result, returned, hreturns, hnode, hproduct⟩
  · exact Or.inl ⟨c, d, hmem, (H.isNamed ..).trans hnode, hfactory⟩
  · exact Or.inr ⟨c, s, hmem, declaring, result, returned, hreturns,
      (H.isNamed ..).trans hnode, hproduct.agree H⟩

/-- **Templates and factories are decided by the graph in the end**, whatever the order of events:
after an analysis of any units, a node is a template exactly where a delivered call and the final
graph tell so, and a factory exactly where a delivered declaration or return and the final graph
do. -/
theorem run_designPatterns (thresholds : HotspotThresholds) (units : List SourceUnit) :
    ∃ summary g, Yields (run thresholds units) .empty summary g ∧
      (∀ n, (g.entity n).has .template = true ↔ IsTemplate units g n) ∧
      ∀ n, (g.entity n).has .factory = true ↔ IsFactory units g n := by
  obtain ⟨summary, hrun⟩ := yields_run_built units thresholds
  have H := agree_detected thresholds (built units)
  refine ⟨summary, _, hrun, fun n => ?_, fun n => ?_⟩
  · rw [H.has (l := .template) rfl, has_pattern_built, has_template_produced, has_template_marked]
    exact ⟨.agree H, .agree H.symm⟩
  · rw [H.has (l := .factory) rfl, has_pattern_built, has_factory_produced]
    exact ⟨.agree H, .agree H.symm⟩

end Analysis

end Variability
