import Variability.Proofs.Effect

/-!
# The acts of each sweep

What the handlers do to the graph comes down to acts of four kinds: a type gets a node, a member
gets a node below that of a type, a node is labelled, and two nodes are linked. A sweep does not do
all of them, and the types that it gives nodes to are those that its events name. This module lists
for each sweep and event the acts that may happen (`Sweep.DeclarationAct` and its companions), and
shows what follows for everything a sweep does not write.

## Main results

* `Graph.By.filter_edges`, `Graph.By.step_iff`, `Graph.By.has`: what is not written stays.
* `Graph.By.exists_of_new`: a new node was made by an act, with the name, kind and scope of the act.
* `Sweep.by_declarations`, `Sweep.by_supertypes`, `Sweep.by_roles`, `Sweep.by_factories`,
  `Sweep.by_compositions`: the acts of the sweeps.
* `Analysis.by_composing`: after the second sweep, the only edges that come are compositions.
-/

namespace Variability

open Session

/-- What can be done to a graph at once. -/
inductive Act where
  /-- A type gets a node, with labels besides its kind. -/
  | type (name : String) (kind : EntityKind) (ls : List Label)
  /-- A member gets a node below that of a type, with labels besides its kind. -/
  | member (owner : NodeId) (name : String) (kind : EntityKind) (ls : List Label)
  /-- A node is labelled. -/
  | note (id : NodeId) (ls : List Label)
  /-- Two nodes are linked. -/
  | link (source : NodeId) (relation : Relation) (target : NodeId)

namespace Act

/-- The graph after an act. -/
def apply : Act → Graph → Graph
  | type name kind ls, g => g.addNode name (.kind kind :: ls)
  | member owner name kind ls, g =>
    (g.addNode name (.kind kind :: ls)).addEdge owner .member g.size
  | note id ls, g => g.label id ls
  | link source relation target, g => g.addEdge source relation target

/-- The relation of the edge that an act adds. -/
def relation? : Act → Option Relation
  | type .. | note .. => none
  | member .. => some .member
  | link _ relation _ => some relation

/-- The labels that an act gives to a node. -/
def labels : Act → List Label
  | type _ kind ls | member _ _ kind ls => .kind kind :: ls
  | note _ ls => ls
  | link .. => []

/-- The name of the node that an act makes. -/
def newName? : Act → Option String
  | type name _ _ | member _ name _ _ => some name
  | note .. | link .. => none

end Act

namespace Graph

variable {S T : Act → Prop} {g h k : Graph}

/-- `h` is made of `g` by acts that meet a condition. -/
def By (S : Act → Prop) : Graph → Graph → Prop :=
  Relation.ReflTransGen fun g h => ∃ a, S a ∧ h = a.apply g

namespace By

theorem refl : By S g g := Relation.ReflTransGen.refl

theorem act {a : Act} (ha : S a) : By S g (a.apply g) := Relation.ReflTransGen.single ⟨a, ha, rfl⟩

theorem trans (H : By S g h) (K : By S h k) : By S g k := Relation.ReflTransGen.trans H K

theorem mono (H : By S g h) (hST : ∀ a, S a → T a) : By T g h := by
  induction H with
  | refl => exact refl
  | tail _ hstep ih =>
      obtain ⟨a, ha, rfl⟩ := hstep
      exact ih.trans (act (hST a ha))

/-- A loop of such steps. -/
theorem foldl {α : Type} {E : Graph → α → Graph} {xs : List α}
    (hE : ∀ x ∈ xs, ∀ g, By S g (E g x)) : By S g (xs.foldl E g) :=
  List.foldlRecOn (motive := By S g) xs E refl fun _ hg x hx => hg.trans (hE x hx _)

theorem ask {name : String} {kind : EntityKind} {onCreate : List Label}
    (ha : S (.type name kind onCreate)) : By S g (g.ask name kind onCreate []) := by
  unfold Graph.ask
  split
  · rw [label_nil]
    exact refl
  · exact act ha

theorem labelIf {b : Bool} {id : NodeId} {l : Label} (ha : S (.note id [l])) :
    By S g (g.labelIf b id l) := by
  unfold Graph.labelIf
  split
  · exact act ha
  · exact refl

/-! ### What acts leave alone -/

/-- Edges of relations that no act adds are as before, in the same order. -/
theorem filter_edges (H : By S g h) {p : Relation → Bool}
    (hS : ∀ a, S a → ∀ r, a.relation? = some r → p r = false) :
    h.edges.toList.filter (p ·.relation) = g.edges.toList.filter (p ·.relation) := by
  have hpush : ∀ (g : Graph) (s : NodeId) (r : Relation) (t : NodeId), p r = false →
      (g.addEdge s r t).edges.toList.filter (p ·.relation) =
        g.edges.toList.filter (p ·.relation) := by
    intro g s r t hr
    simp [addEdge, hr]
  induction H with
  | refl => rfl
  | tail _ hstep ih =>
      obtain ⟨a, ha, rfl⟩ := hstep
      refine Eq.trans ?_ ih
      cases a with
      | type => rfl
      | member => exact hpush _ _ _ _ (hS _ ha _ rfl)
      | note => rfl
      | link => exact hpush _ _ _ _ (hS _ ha _ rfl)

/-- There are as many edges as before of the relations that no act adds. -/
theorem edgeCount (H : By S g h) {p : Relation → Bool}
    (hS : ∀ a, S a → ∀ r, a.relation? = some r → p r = false) : h.edgeCount p = g.edgeCount p := by
  rw [Graph.edgeCount, Graph.edgeCount, List.countP_eq_length_filter,
    List.countP_eq_length_filter, H.filter_edges hS]

/-- Steps along a relation that no act adds are as before. -/
theorem step_iff (H : By S g h) {r : Relation} (hS : ∀ a, S a → a.relation? ≠ some r)
    {s t : NodeId} : h.Step r s t ↔ g.Step r s t := by
  have hedges := H.filter_edges (p := (· == r)) fun a ha r' hr' =>
    beq_false_of_ne fun heq => hS a ha (heq ▸ hr')
  have hmem : ∀ g : Graph, g.Step r s t ↔ ⟨s, r, t⟩ ∈ g.edges.toList.filter (·.relation == r) := by
    intro g
    simp [Step, List.mem_filter]
  rw [hmem, hmem, hedges]

/-- Labels that no act gives are where they were. -/
theorem has (H : By S g h) {l : Label} (hS : ∀ a, S a → l ∉ a.labels) (n : NodeId) :
    (h.entity n).has l = (g.entity n).has l := by
  induction H with
  | refl => rfl
  | tail _ hstep ih =>
      obtain ⟨a, ha, rfl⟩ := hstep
      refine Eq.trans ?_ ih
      have hl := hS a ha
      cases a with
      | type => exact has_addNode_of_not_mem hl n
      | member => exact has_addNode_of_not_mem hl n
      | note => exact has_label_of_not_mem hl
      | link => rfl

/-- An act that says nothing new about kind and scope keeps nodes as they are. -/
theorem extends_apply {a : Act} (ha : ∀ id ls, a = .note id ls → ∀ l ∈ ls, l.isFixed = false)
    (g : Graph) : g.Extends (a.apply g) := by
  have hnew : ∀ name ls, g.Extends (g.addNode name ls) := by
    refine fun name ls => ⟨keeps_addNode .., fun n hn => ?_⟩
    rw [entity_addNode, if_neg (Nat.ne_of_lt hn)]
  cases a with
  | type => exact hnew _ _
  | member => exact ⟨(hnew _ _).toKeeps.trans (keeps_addEdge ..), (hnew _ _).name⟩
  | note id ls =>
      have hsize : g.size ≤ (g.label id ls).size := Nat.le_of_eq (size_label ..).symm
      refine ⟨⟨hsize, fun n _ l hl => has_label_of_not_mem fun hmem => ?_⟩, fun n _ => ?_⟩
      · rw [ha id ls rfl l hmem] at hl
        exact Bool.false_ne_true hl
      · rw [Act.apply, label, entity_update]
        split <;> rfl
  | link => exact ⟨keeps_addEdge .., fun _ _ => rfl⟩

/-- A new node was made by an act, with the name, kind and scope of the act. -/
theorem exists_of_new (H : By S g h)
    (hS : ∀ id ls, S (.note id ls) → ∀ l ∈ ls, l.isFixed = false) {n : NodeId} (hn : g.size ≤ n)
    (hlt : n < h.size) :
    ∃ a, S a ∧ a.newName? = some (h.entity n).name ∧
      ∀ l, l.isFixed = true → (h.entity n).has l = decide (l ∈ a.labels) := by
  induction H with
  | refl => exact absurd hlt (Nat.not_lt.mpr hn)
  | @tail k _ _ hstep ih =>
      obtain ⟨a, ha, rfl⟩ := hstep
      have H : k.Extends (a.apply k) := extends_apply (fun id ls heq => hS id ls (heq ▸ ha)) k
      by_cases hold : n < k.size
      · obtain ⟨b, hb, hname, hlabels⟩ := ih hold
        refine ⟨b, hb, by rw [H.name n hold, hname], fun l hl => ?_⟩
        rw [H.has n hold l hl, hlabels l hl]
      · -- The last act has made the node.
        have hnew : ∀ name ls, n < (k.addNode name ls).size →
            (k.addNode name ls).entity n = { name, labels := .ofList ls } := by
          intro name ls hlt
          rw [size_addNode] at hlt
          have heq : n = k.size :=
            Nat.le_antisymm (Nat.le_of_lt_succ hlt) (Nat.le_of_not_lt hold)
          rw [entity_addNode, if_pos heq]
        cases a with
        | type name kind ls =>
            refine ⟨_, ha, ?_, fun l _ => ?_⟩
            · rw [Act.apply, hnew _ _ hlt]
              rfl
            · rw [Act.apply, hnew _ _ hlt]
              simp [Entity.has, Act.labels]
        | member owner name kind ls =>
            refine ⟨_, ha, ?_, fun l _ => ?_⟩
            · rw [Act.apply, entity_addEdge, hnew _ _ hlt]
              rfl
            · rw [Act.apply, entity_addEdge, hnew _ _ hlt]
              simp [Entity.has, Act.labels]
        | note id ls => exact absurd ((size_label ..) ▸ hlt) hold
        | link => exact absurd hlt hold

end By

end Graph

/-! ### The acts of the sweeps -/

/-- The supertypes that a declaration names in a relation. -/
def TypeDecl.clause (d : TypeDecl) : Relation → List TypeRef
  | .extending => d.superclass.toList
  | .implementing => d.interfaces
  | _ => []

/-- A method that is no constructor, of a type `declaring` and with the return type `result`,
returns a value of the type `returned`, which is neither nested nor that of `null`. -/
def ReturnSite.Returns (s : ReturnSite) (declaring result returned : TypeRef) : Prop :=
  s.expression = some returned ∧ returned.isNested = false ∧ returned.isNull = false ∧
    ∃ m, s.enclosing = some m ∧ m.isConstructor = false ∧ m.returnType = some result ∧
      m.declaring = some declaring

theorem ReturnSite.returns_iff {s : ReturnSite} {declaring result returned : TypeRef} :
    s.Returns declaring result returned ↔
      Sweep.ReturnSite.product? s = some (declaring, result, returned) := by
  constructor
  · rintro ⟨hexpression, hnested, hnull, m, hm, hconstructor, hresult, hdeclaring⟩
    simp [Sweep.ReturnSite.product?, hexpression, hnested, hnull, hm, hconstructor, hresult,
      hdeclaring]
  · intro hs
    obtain ⟨expression, hexpression, hs⟩ := Option.bind_eq_some_iff.mp hs
    split at hs
    · cases hs
    · rename_i hvalue
      obtain ⟨m, hm, hs⟩ := Option.bind_eq_some_iff.mp hs
      split at hs
      · cases hs
      · rename_i hconstructor
        obtain ⟨result', hresult, hs⟩ := Option.bind_eq_some_iff.mp hs
        obtain ⟨declaring', hdeclaring, heq⟩ := Option.bind_eq_some_iff.mp hs
        cases heq
        obtain ⟨hnested, hnull⟩ := not_or.mp (mt (Bool.or_eq_true _ _).mpr hvalue)
        exact ⟨hexpression, Bool.eq_false_iff.mpr hnested, Bool.eq_false_iff.mpr hnull, m, hm,
          Bool.eq_false_iff.mpr hconstructor, hresult, hdeclaring⟩

namespace Sweep

/-- The first sweep: nodes for types, their members and the owners of these. -/
inductive DeclarationAct (c : Context) : Event → Act → Prop
  | type (d : TypeDecl) : DeclarationAct c (.entered d) (.type d.qualified d.nodeKind d.labels)
  | note (d : TypeDecl) (id : NodeId) : DeclarationAct c (.entered d) (.note id d.labels)
  | owner {d : MethodDecl} {r : TypeRef} (hr : d.declaring = some r) :
      DeclarationAct c (.method d) (.type r.qualified r.nodeKind [])
  | member {d : MethodDecl} {r : TypeRef} (hr : d.declaring = some r) (owner : NodeId) :
      DeclarationAct c (.method d)
        (.member owner d.name d.nodeKind (d.labels (c.current?.any (·.isPublic))))

/-- The second sweep: edges from supertypes, and nodes out of scope for these. -/
inductive SupertypeAct (c : Context) : Event → Act → Prop
  | type {d : TypeDecl} {relation : Relation} {r : TypeRef} (hr : r ∈ d.clause relation)
      {name : String} (hname : r.MayMean c.imports name) :
      SupertypeAct c (.entered d) (.type name (supertypeKind relation) [.outOfScope])
  | link {d : TypeDecl} {relation : Relation} (hrelation : relation ∈ Relation.inheritance)
      (source target : NodeId) : SupertypeAct c (.entered d) (.link source relation target)

/-- The third sweep: patterns, and nodes out of scope for the types that calls go to. -/
inductive RoleAct : Event → Act → Prop
  | type (i : Invocation) :
      RoleAct (.invocation (some i)) (.type i.declaring.erasure i.declaring.nodeKind [.outOfScope])
  | note (e : Event) (id : NodeId) (p : DesignPattern) : RoleAct e (.note id [.pattern p])

/-- The fourth sweep: factories, and nodes for them. -/
inductive FactoryAct : Event → Act → Prop
  | type (d : TypeDecl) : FactoryAct (.entered d) (.type d.qualified d.nodeKind [])
  | maker {s : ReturnSite} {declaring result returned : TypeRef}
      (hs : ReturnSite.product? s = some (declaring, result, returned)) :
      FactoryAct (.returning s) (.type declaring.erasure declaring.nodeKind [.outOfScope])
  | note (e : Event) (id : NodeId) : FactoryAct e (.note id [.factory])

/-- The fifth sweep: compositions, and nodes for what is composed. -/
inductive CompositionAct (c : Context) : Event → Act → Prop
  | holder (d : FieldDecl) {current : TypeDecl} (hcurrent : c.current? = some current) :
      CompositionAct c (.field d) (.type current.qualified current.toRef.nodeKind [])
  | owner {d : MethodDecl} {r : TypeRef} (hr : d.declaring = some r) :
      CompositionAct c (.method d) (.type r.qualified r.nodeKind [])
  | link (e : Event) (source target : NodeId) :
      CompositionAct c e (.link source .composing target)

open Variability.Graph (By)

variable {g : Graph}

theorem by_declarations (c : Context) (e : Event) :
    By (DeclarationAct c e) g (Effect.declarations c e g) := by
  cases e with
  | entered d =>
      simp only [Effect.declarations, Effect.declareType, Graph.ask]
      split
      · exact By.act (DeclarationAct.note d _)
      · exact By.act (DeclarationAct.type d)
  | method d =>
      simp only [Effect.declarations, Effect.declareMember]
      cases hr : d.declaring with
      | none => exact By.refl
      | some r => exact (By.ask (.owner hr)).trans (By.act (DeclarationAct.member hr _))
  | _ => exact By.refl

theorem by_linkSupertype {c : Context} {d : TypeDecl} {relation : Relation} {r : TypeRef}
    (hrelation : relation ∈ Relation.inheritance) (hr : r ∈ d.clause relation) (subtype : NodeId) :
    By (SupertypeAct c (.entered d)) g (Effect.linkSupertype c subtype relation g r) :=
  (By.ask (.type hr (g.mayMean_target_getD r c.imports))).trans
    (By.act (SupertypeAct.link hrelation _ subtype))

theorem by_supertypes (c : Context) (e : Event) :
    By (SupertypeAct c e) g (Effect.supertypes c e g) := by
  cases e with
  | entered d =>
      simp only [Effect.supertypes, Effect.linkSupertypes]
      split
      · exact By.refl
      · rename_i this _
        refine (By.foldl fun r hr g => ?_).trans (By.foldl fun r hr g => ?_)
        · exact by_linkSupertype (by decide) hr this.id
        · exact by_linkSupertype (by decide) hr this.id
  | _ => exact By.refl

theorem by_markHolder (e : Event) (current : TypeDecl) (field : NodeId) :
    By (RoleAct e) g (Effect.markHolder current field g) := by
  unfold Effect.markHolder
  split
  · exact By.refl
  · exact By.labelIf (.note e _ _)

theorem by_roles (c : Context) (e : Event) : By (RoleAct e) g (Effect.roles c e g) := by
  rcases e with _ | _ | _ | _ | d | (_ | i) | _
  case field =>
    simp only [Effect.roles, Effect.rolesOfField]
    split
    · split
      · exact By.refl
      · split
        · exact By.refl
        · split
          · exact By.refl
          · exact (By.labelIf (.note _ _ _)).trans
              ((By.labelIf (.note _ _ _)).trans (by_markHolder _ _ _))
    · exact By.refl
  case invocation.some => exact (By.ask (.type i)).trans (By.labelIf (.note _ _ _))
  all_goals exact By.refl

theorem by_factories (e : Event) : By (FactoryAct e) g (Effect.factories e g) := by
  cases e with
  | entered d =>
      simp only [Effect.factories, Effect.factoryByName]
      split
      · exact (By.ask (.type d)).trans (By.act (FactoryAct.note _ _))
      · exact By.refl
  | returning s =>
      simp only [Effect.factories, Effect.factoryByReturn]
      split
      · exact By.refl
      · rename_i hs
        exact (By.ask (.maker hs)).trans (By.labelIf (.note _ _))
  | _ => exact By.refl

theorem by_compose (c : Context) (e : Event) (parent used : NodeId) :
    By (CompositionAct c e) g (Effect.compose parent used g) := by
  unfold Effect.compose
  split
  · exact By.refl
  · exact By.act (CompositionAct.link e parent used)

theorem by_composeSignature (c : Context) (d : MethodDecl) (parent : NodeId) (name : String) :
    By (CompositionAct c (.method d)) g (Effect.composeSignature c d parent name g) := by
  have htaken : By (CompositionAct c (.method d)) g
      ((d.parameters.filterMap id).foldl (Effect.composeParameter c parent) g) := by
    refine By.foldl fun r _ g => ?_
    unfold Effect.composeParameter
    split
    · exact By.refl
    · exact by_compose c _ _ _
  unfold Effect.composeSignature
  split
  · exact htaken
  · refine htaken.trans (By.foldl fun r _ g => ?_)
    unfold Effect.composeResult
    split
    · exact By.refl
    · split
      · exact By.refl
      · exact by_compose c _ _ _

theorem by_compositions (c : Context) (e : Event) :
    By (CompositionAct c e) g (Effect.compositions c e g) := by
  cases e with
  | field d =>
      simp only [Effect.compositions, Effect.composeField]
      split
      · rename_i r current _ hcurrent
        split
        · exact By.refl
        · split
          · exact By.refl
          · exact (By.ask (.holder d hcurrent)).trans (by_compose c _ _ _)
      · exact By.refl
  | method d =>
      simp only [Effect.compositions, Effect.composeMethod]
      cases hr : d.declaring with
      | none => exact By.refl
      | some r =>
          exact (By.ask (.owner hr)).trans (by_composeSignature c d _ _)
  | _ => exact By.refl

variable {c : Context} {e : Event} {a : Act} {r : Relation}

/-- The first sweep links types to their members only. -/
theorem DeclarationAct.relation (ha : DeclarationAct c e a) (hr : a.relation? = some r) :
    r = .member := by
  cases ha <;> cases hr
  rfl

/-- The second sweep links types to their supertypes only. -/
theorem SupertypeAct.relation (ha : SupertypeAct c e a) (hr : a.relation? = some r) :
    r ∈ Relation.inheritance := by
  cases ha with
  | type => cases hr
  | link hrelation =>
      cases hr
      exact hrelation

/-- The third sweep links nothing. -/
theorem RoleAct.relation (ha : RoleAct e a) : a.relation? = none := by
  cases ha <;> rfl

/-- The fourth sweep links nothing. -/
theorem FactoryAct.relation (ha : FactoryAct e a) : a.relation? = none := by
  cases ha <;> rfl

/-- The fifth sweep links types to what they are composed of only. -/
theorem CompositionAct.relation (ha : CompositionAct c e a) (hr : a.relation? = some r) :
    r = .composing := by
  cases ha <;> cases hr
  rfl

/-- The acts of a whole sweep. -/
theorem by_apply {E : Context → Event → Graph → Graph} {A : Context → Event → Act → Prop}
    (hE : ∀ c e g, By (A c e) g (E c e g)) (ds : List (Context × Event)) :
    By (fun a => ∃ c e, (c, e) ∈ ds ∧ A c e a) g (apply E ds g) :=
  By.foldl fun x hx g => (hE x.1 x.2 g).mono fun _ ha => ⟨x.1, x.2, hx, ha⟩

/-- The first sweep gives labels that tell kinds or are notes. -/
theorem DeclarationAct.isNote_of_mem {c : Context} {e : Event} {a : Act}
    (ha : DeclarationAct c e a) {l : Label} (hl : l ∈ a.labels) :
    l.isNote = true ∨ ∃ k, l = .kind k := by
  have hcons : ∀ {k : EntityKind} {ls : List Label}, (∀ l ∈ ls, l.isNote = true) →
      l ∈ Label.kind k :: ls → l.isNote = true ∨ ∃ k, l = .kind k := by
    intro k ls hls hmem
    rcases List.mem_cons.mp hmem with rfl | hmem
    · exact Or.inr ⟨k, rfl⟩
    · exact Or.inl (hls l hmem)
  cases ha with
  | type d => exact hcons d.isNote_of_mem_labels hl
  | note d id => exact Or.inl (d.isNote_of_mem_labels l hl)
  | owner => exact hcons (by simp) hl
  | member => exact hcons (MethodDecl.isNote_of_mem_labels _ _) hl

/-! ### After the first sweep -/

/-- The acts of all sweeps but the first: they make no members, and give no node another kind or
scope. -/
def IsLater : Act → Prop
  | .type _ kind ls => kind.isType = true ∧ ∀ l ∈ ls, l = .outOfScope
  | .member .. => False
  | .note _ ls => ∃ p, ls = [.pattern p]
  | .link _ relation _ => relation ≠ .member

theorem SupertypeAct.isLater (ha : SupertypeAct c e a) : IsLater a := by
  cases ha with
  | type => exact ⟨isType_supertypeKind _, by simp⟩
  | link hrelation =>
      rintro rfl
      exact absurd hrelation (by decide)

theorem RoleAct.isLater (ha : RoleAct e a) : IsLater a := by
  cases ha with
  | type i => exact ⟨i.declaring.isType_nodeKind, by simp⟩
  | note _ _ p => exact ⟨p, rfl⟩

theorem FactoryAct.isLater (ha : FactoryAct e a) : IsLater a := by
  cases ha with
  | type d => exact ⟨d.isType_nodeKind, by simp⟩
  | maker => exact ⟨TypeRef.isType_nodeKind _, by simp⟩
  | note => exact ⟨.factory, rfl⟩

theorem CompositionAct.isLater (ha : CompositionAct c e a) : IsLater a := by
  cases ha with
  | holder => exact ⟨TypeRef.isType_nodeKind _, by simp⟩
  | owner => exact ⟨TypeRef.isType_nodeKind _, by simp⟩
  | link => exact (by decide : Relation.composing ≠ .member)

/-- Later sweeps add no member edge. -/
theorem IsLater.relation_ne (ha : IsLater a) {r : Relation} (hr : a.relation? = some r) :
    r ≠ .member := by
  cases a with
  | type => cases hr
  | member => exact ha.elim
  | note => cases hr
  | link =>
      cases hr
      exact ha

/-- Later acts make no members. -/
theorem IsLater.not_mem_labels (ha : IsLater a) {k : EntityKind} (hk : k.isType = false) :
    Label.kind k ∉ a.labels := by
  intro hmem
  cases a with
  | type name kind ls =>
      rcases List.mem_cons.mp hmem with heq | hmem
      · cases heq
        rw [ha.1] at hk
        exact absurd hk (by decide)
      · exact absurd (ha.2 _ hmem) (by simp)
  | member => exact ha
  | note id ls =>
      obtain ⟨p, rfl⟩ := ha
      simp [Act.labels] at hmem
  | link => exact absurd hmem List.not_mem_nil

end Sweep

namespace Graph

variable {g h : Graph}

/-- Later sweeps find the members that are there. -/
theorem By.isMember (H : By Sweep.IsLater g h) (n : NodeId) :
    (h.entity n).isMember = (g.entity n).isMember := by
  rw [Entity.isMember, Entity.isMember, H.has (fun a ha => ha.not_mem_labels rfl),
    H.has (fun a ha => ha.not_mem_labels rfl)]

end Graph

namespace Analysis

open Variability.Graph (By)

variable (units : List SourceUnit)

theorem by_declared : By (fun a => ∃ c e, (c, e) ∈ Sweep.deliveries units ∧
    Sweep.DeclarationAct c e a) .empty (declared units) :=
  Sweep.by_apply (fun c e _ => Sweep.by_declarations c e) _

theorem by_linked : By (fun a => ∃ c e, (c, e) ∈ Sweep.deliveries units ∧
    Sweep.SupertypeAct c e a) (declared units) (linked units) :=
  Sweep.by_apply (fun c e _ => Sweep.by_supertypes c e) _

theorem by_marked : By (fun a => ∃ c e, (c, e) ∈ Sweep.deliveries units ∧
    Sweep.RoleAct e a) (linked units) (marked units) :=
  Sweep.by_apply (fun c e _ => Sweep.by_roles c e) _

theorem by_produced : By (fun a => ∃ c e, (c, e) ∈ Sweep.deliveries units ∧
    Sweep.FactoryAct e a) (marked units) (produced units) :=
  Sweep.by_apply (fun _ e _ => Sweep.by_factories e) _

theorem by_built : By (fun a => ∃ c e, (c, e) ∈ Sweep.deliveries units ∧
    Sweep.CompositionAct c e a) (produced units) (built units) :=
  Sweep.by_apply (fun c e _ => Sweep.by_compositions c e) _

/-- What the sweeps do after the first. -/
theorem by_isLater : By Sweep.IsLater (declared units) (built units) := by
  have h₂ := (by_linked units).mono fun _ ⟨_, _, _, ha⟩ => ha.isLater
  have h₃ := (by_marked units).mono fun _ ⟨_, _, _, ha⟩ => ha.isLater
  have h₄ := (by_produced units).mono fun _ ⟨_, _, _, ha⟩ => ha.isLater
  have h₅ := (by_built units).mono fun _ ⟨_, _, _, ha⟩ => ha.isLater
  exact h₂.trans (h₃.trans (h₄.trans h₅))

/-- After the second sweep, the only edges that come are compositions. -/
theorem by_composing : By (fun a => ∀ r, a.relation? = some r → r = .composing) (linked units)
    (built units) := by
  refine ((by_marked units).mono ?_).trans (((by_produced units).mono ?_).trans
    ((by_built units).mono ?_))
  · rintro a ⟨c, e, -, ha⟩ r hr
    rw [ha.relation] at hr
    cases hr
  · rintro a ⟨c, e, -, ha⟩ r hr
    rw [ha.relation] at hr
    cases hr
  · rintro a ⟨c, e, -, ha⟩ r hr
    exact ha.relation hr

/-- Up to the fourth sweep there are no compositions. -/
theorem by_notComposing : By (fun a => a.relation? ≠ some .composing) .empty (produced units) := by
  refine ((by_declared units).mono ?_).trans (((by_linked units).mono ?_).trans
    (((by_marked units).mono ?_).trans ((by_produced units).mono ?_)))
  · rintro a ⟨c, e, -, ha⟩ hr
    exact absurd (ha.relation hr) (by decide)
  · rintro a ⟨c, e, -, ha⟩ hr
    exact absurd (ha.relation hr) (by decide)
  · rintro a ⟨c, e, -, ha⟩ hr
    rw [ha.relation] at hr
    cases hr
  · rintro a ⟨c, e, -, ha⟩ hr
    rw [ha.relation] at hr
    cases hr

/-- The first sweep puts nothing out of scope. -/
theorem inScope_declared (n : NodeId) :
    ((declared units).entity n).has .outOfScope = false := by
  have hempty : (Graph.empty.entity n).has .outOfScope = false := by
    rw [Graph.entity_of_le (Nat.zero_le n)]
    simp [Entity.has]
  refine ((by_declared units).has ?_ n).trans hempty
  rintro a ⟨c, e, -, ha⟩ hmem
  rcases ha.isNote_of_mem hmem with hnote | ⟨k, hk⟩
  · exact Bool.false_ne_true hnote
  · cases hk

end Analysis

end Variability
