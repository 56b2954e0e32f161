import Variability.Sweep.Roles
import Variability.Sweep.Factories
import Variability.Sweep.Compositions
import Variability.Proofs.Growth

/-!
# The five sweeps build

Every handler of every sweep succeeds on every closed graph, and does to the graph only what
`Graph.Grows` lists. The preconditions of the steps come from the code around them: an inheritance
edge starts at a node that was asked for by the kind its relation needs, a composition edge ends at
a node that was read as in scope.

## Main results

* `Session.buildsAt_getOrCreateNode`: asking for a type lets the graph grow.
* `Sweep.building_declarations`, `Sweep.building_supertypes`, `Sweep.building_roles`,
  `Sweep.building_factories`, `Sweep.building_compositions`: the sweeps.
-/

namespace Variability

open Session

/-! ### Steps -/

namespace Session

variable {σ : Type} {s : σ} {g : Graph}

/-- Asking for a type answers a node of the kind asked for. If there is none it gets one, and
otherwise labels are noted on it. -/
theorem buildsAt_getOrCreateNode {name : String} {kind : EntityKind}
    {onCreate onMatch : List Label} (hkind : kind.isType = true)
    (hcreate : ∀ l ∈ onCreate, l.isNote = true ∨ l = .outOfScope)
    (hmatch : ∀ l ∈ onMatch, l.isNote = true) :
    BuildsAt (liftM (getOrCreateNode name kind onCreate onMatch) : StateT σ Session Node) s g
      fun n g' => (g'.entity n.id).has (.kind kind) = true := by
  cases hfirst : g.firstWhere (isNamed name kind) with
  | some n =>
      obtain ⟨-, -, hnamed⟩ := Graph.firstWhere_eq_some hfirst
      have hhas : (g.entity n.id).has (.kind kind) = true := ((Bool.and_eq_true _ _).mp hnamed).2
      exact .lift (yields_getOrCreateNode_of_some onCreate onMatch hfirst)
        (.single (.note hmatch)) ((Graph.keeps_label hmatch).has_kind hhas)
  | none =>
      have hnew : ∀ n, (g.entity n).name = name → (g.entity n).has (.kind kind) = false := by
        intro n hname
        refine Bool.eq_false_iff.mpr fun hhas => ?_
        have hnone := Graph.firstWhere_eq_none hfirst (Graph.lt_size_of_has hhas)
        simp [isNamed, hname, hhas] at hnone
      refine .lift (yields_getOrCreateNode_of_none onCreate onMatch hfirst)
        (.single (.type hkind hnew hcreate)) ?_
      simp [Graph.entity_addNode, Entity.has]

/-- Noting a label on a node. -/
theorem buildsAt_addLabel {id : NodeId} {l : Label} (hid : id < g.size) (hl : l.isNote = true) :
    BuildsAt (liftM (addLabel id l) : StateT σ Session Unit) s g fun _ _ => True :=
  .lift (yields_addLabel hid l) (.single (.note (by simpa using hl))) trivial

/-- Looking for a node answers, if any, one of the graph. -/
theorem lt_of_findByName {name : String} {n : Node}
    (h : (g.firstWhere fun e => e.name == name) = some n) : n.id < g.size :=
  (Graph.firstWhere_eq_some h).1

end Session

/-! ### References -/

namespace Target

variable {g : Graph}

/-- Searching packages reads the graph. -/
theorem yields_firstInPackages (simple : String) (packages : List String) :
    ∃ found, Yields (firstInPackages simple packages) g found g := by
  induction packages with
  | nil => exact ⟨none, Yields.pure _ _⟩
  | cons package packages ih =>
      have hfind := yields_findInPackage (g := g) simple package
      cases hfirst : g.firstWhere fun e => Name.lastSegment e.name == Name.lastSegment simple &&
          e.isInPackage simple package with
      | some n =>
          rw [hfirst] at hfind
          exact ⟨some n.name, hfind.bind (Yields.pure _ _)⟩
      | none =>
          rw [hfirst] at hfind
          obtain ⟨found, hrest⟩ := ih
          exact ⟨found, hfind.bind hrest⟩

/-- Resolving a reference reads the graph. -/
theorem yields_resolve (r : TypeRef) (imports : List Import) :
    ∃ found, Yields (resolve r imports) g found g := by
  have hexact : Yields (exact r) g
      ((g.firstWhere fun e => e.name == r.erasure).map fun _ => r.erasure) g :=
    (yields_findByName r.erasure).bind_pure _
  cases hfirst : g.firstWhere fun e => e.name == r.erasure with
  | some n =>
      rw [hfirst] at hexact
      exact ⟨some r.erasure, hexact.bind (Yields.pure _ _)⟩
  | none =>
      rw [hfirst] at hexact
      cases hsingle : singleImport r imports with
      | some name =>
          refine ⟨some name, hexact.bind ?_⟩
          rw [Option.map_none, hsingle]
          exact Yields.pure _ _
      | none =>
          obtain ⟨found, hrest⟩ := yields_firstInPackages (g := g) (Name.erasure r.simple)
            ((imports.filter (·.onDemand)).map (·.path))
          refine ⟨found, hexact.bind ?_⟩
          rw [Option.map_none, hsingle]
          exact hrest

end Target

/-! ### Declarations -/

theorem TypeRef.isType_nodeKind (r : TypeRef) : r.nodeKind.isType = true := by
  unfold nodeKind
  split <;> rfl

theorem TypeDecl.isType_nodeKind (d : TypeDecl) : d.nodeKind.isType = true := by
  unfold nodeKind
  split
  · rfl
  · split <;> rfl

theorem TypeDecl.isNote_of_mem_labels (d : TypeDecl) : ∀ l ∈ d.labels, l.isNote = true := by
  unfold labels
  split <;> simp [Label.isNote]

theorem TypeDecl.pattern_not_mem_labels (d : TypeDecl) (p : DesignPattern) :
    Label.pattern p ∉ d.labels := by
  unfold labels
  split <;> simp

theorem MethodDecl.isType_nodeKind (d : MethodDecl) : d.nodeKind.isType = false := by
  unfold nodeKind
  split <;> rfl

theorem MethodDecl.isNote_of_mem_labels (d : MethodDecl) (ownerIsPublic : Bool) :
    ∀ l ∈ d.labels ownerIsPublic, l.isNote = true := by
  have hite : ∀ {c : Bool} {l' l : Label}, l'.isNote = true →
      l ∈ (if c then [l'] else []) → l.isNote = true := by
    intro c l' l hl' hl
    split at hl
    · rw [List.mem_singleton.mp hl]
      exact hl'
    · exact absurd hl List.not_mem_nil
  intro l hl
  rcases List.mem_append.mp hl with hl | hl
  · exact hite rfl hl
  · exact hite rfl hl

theorem MethodDecl.pattern_not_mem_labels (d : MethodDecl) (ownerIsPublic : Bool)
    (p : DesignPattern) : Label.pattern p ∉ d.labels ownerIsPublic := by
  unfold labels
  split <;> split <;> simp

namespace Sweep

theorem builds_declareType (d : TypeDecl) : Builds (declareType d) := by
  intro s g _
  refine (buildsAt_getOrCreateNode d.isType_nodeKind ?_ d.isNote_of_mem_labels).bind
    fun _ _ _ _ _ => .count
  exact fun l hl => Or.inl (d.isNote_of_mem_labels l hl)

/-- A type of a kind is a type. -/
theorem isType_of_has {e : Entity} {k : EntityKind} (hk : k.isType = true)
    (h : e.has (.kind k) = true) : e.isType = true := by
  cases k with
  | classType => exact (Bool.or_eq_true _ _).mpr (Or.inl h)
  | interfaceType => exact (Bool.or_eq_true _ _).mpr (Or.inr h)
  | method => exact absurd hk (by decide)
  | constructor => exact absurd hk (by decide)

/-- A member gets its node and its edge in one step. -/
theorem builds_declareMember (c : Context) (d : MethodDecl) : Builds (declareMember c d) := by
  intro s g _
  unfold declareMember
  split
  · exact .pure trivial
  · rename_i declaring hdeclaring
    refine (buildsAt_getOrCreateNode declaring.isType_nodeKind (by simp) (by simp)).bind
      fun parent s g hgrown hparent => ?_
    have howner := isType_of_has declaring.isType_nodeKind hparent
    have hlt := Graph.lt_size_of_isType howner
    have hcreate := yields_createNode (g := g) d.name d.nodeKind
      (d.labels (c.current?.any (·.isPublic)))
    have hlink := yields_link (g := g.addNode d.name
        (.kind d.nodeKind :: d.labels (c.current?.any (·.isPublic))))
      (by rw [Graph.size_addNode]; exact Nat.lt_succ_of_lt hlt)
      (by rw [Graph.size_addNode]; exact Nat.lt_succ_self g.size) .member
    refine ⟨(), _, _, (hcreate.lift s).bind ((hlink.lift s).bind (Yields.pure _ _)), ?_, trivial⟩
    exact .single (.member howner d.isType_nodeKind (d.isNote_of_mem_labels _))

theorem building_declarations : declarations.Building where
  enter _ d := (builds_declareType d).bind fun _ => .pure _
  exit _ _ := .pure _
  method := builds_declareMember
  field _ _ := .pure _
  invocation _ _ := .pure _
  returning _ _ := .pure _

/-! ### Supertypes -/

/-- An inheritance edge, from a node that was asked for by the kind its relation needs. -/
theorem buildsAt_linkSupertype {c : Context} {subtype : NodeId} {relation : Relation}
    (hrelation : relation ∈ Relation.inheritance) {r : TypeRef} {s : SupertypeCounts} {g : Graph}
    (hsubtype : (g.entity subtype).isType = true) :
    BuildsAt (linkSupertype c subtype relation r) s g fun _ _ => True := by
  have hkind : (supertypeKind relation).isType = true := by
    cases relation <;> rfl
  obtain ⟨found, hfound⟩ := Target.yields_resolve (g := g) r c.imports
  have hrest : ∀ (s : SupertypeCounts) g', g.Grown g' → BuildsAt (do
      let parent ← getOrCreateNode (found.getD r.erasure) (supertypeKind relation)
        [.outOfScope] []
      link parent.id subtype relation
      modify fun n => { n with links := n.links + 1 }) s g' fun _ _ => True := by
    intro s g₁ hgrown₁
    refine (buildsAt_getOrCreateNode hkind (by simp) (by simp)).bind
      fun parent s g₂ hgrown₂ hparent => ?_
    have hsubtype₂ := (hgrown₁.trans hgrown₂).isType hsubtype
    have hlink := yields_link (Graph.lt_size_of_has hparent)
      (Graph.lt_size_of_isType hsubtype₂) relation
    exact (BuildsAt.lift (Q := fun _ _ => True) hlink
      (.single (.inherit hrelation hparent hsubtype₂)) trivial).bind fun _ _ _ _ _ => .count
  refine .read hfound ?_
  split
  · exact hrest _ _ .refl
  · exact BuildsAt.count.bind fun _ s g' hgrown _ => hrest s g' hgrown

theorem builds_linkSupertypes (c : Context) (d : TypeDecl) : Builds (linkSupertypes c d) := by
  intro s g _
  have hfind := yields_findByLabelsAndName (g := g)
    [if d.isInterface then .interfaceType else .classType] d.qualified
  refine .read hfind ?_
  split
  · exact .pure trivial
  · rename_i this hthis
    have htype : (g.entity this.id).isType = true := by
      obtain ⟨-, -, hc⟩ := Graph.firstWhere_eq_some hthis
      simp only [List.all_cons, List.all_nil, Bool.and_true, Bool.and_eq_true] at hc
      split at hc
      · exact (Bool.or_eq_true _ _).mpr (Or.inr hc.2)
      · exact (Bool.or_eq_true _ _).mpr (Or.inl hc.2)
    refine BuildsAt.bind (BuildsAt.forM fun r _ s g' hgrown => ?_) fun _ s g' hgrown _ =>
      BuildsAt.forM fun r _ s g'' hgrown' => ?_
    · exact buildsAt_linkSupertype (by decide) (hgrown.isType htype)
    · exact buildsAt_linkSupertype (by decide) ((hgrown.trans hgrown').isType htype)

theorem building_supertypes : supertypes.Building where
  enter c d := (builds_linkSupertypes c d).bind fun _ => .pure _
  exit _ _ := .pure _
  method _ _ := .pure _
  field _ _ := .pure _
  invocation _ _ := .pure _
  returning _ _ := .pure _

/-! ### Roles -/

section Roles

variable {s : RoleCounts} {g : Graph}

theorem buildsAt_markDecorator {id : NodeId} (hid : id < g.size) :
    BuildsAt (markDecorator id) s g fun _ _ => True :=
  (buildsAt_addLabel hid rfl).bind fun _ _ _ _ _ => .count

/-- Looking for inheritance reads the graph. -/
theorem yields_inheritsFrom (hg : g.Closed) (name : String) (id : NodeId) :
    ∃ b, Yields (inheritsFrom name id) g b g := by
  have hsuperclass := (yields_supertypesOf hg name .extending .classType).bind_pure List.head?
  have hinterfaces := yields_supertypesOf hg name .implementing .interfaceType
  exact ⟨_, hsuperclass.bind (hinterfaces.bind (Yields.pure _ _))⟩

/-- Asking whether a type is a strategy reads the graph. -/
theorem yields_isStrategy (hg : g.Closed) (r : TypeRef) {id : NodeId} (hid : id < g.size) :
    ∃ b, Yields (isStrategy r id) g b g := by
  unfold isStrategy
  split
  · exact ⟨true, Yields.pure _ _⟩
  · exact ⟨_, (yields_variantCount hg hid).bind_pure _⟩

theorem buildsAt_markHolder (hg : g.Closed) (current : TypeDecl) {field : NodeId}
    (hfield : field < g.size) : BuildsAt (markHolder current field) s g fun _ _ => True := by
  refine .read (yields_findByName current.qualified) ?_
  split
  · exact .pure trivial
  · rename_i holder hholder
    have hlt := lt_of_findByName hholder
    obtain ⟨inherits, hinherits⟩ := yields_inheritsFrom hg current.qualified field
    refine .read hinherits ?_
    split
    · refine .read (yields_variantCount hg hfield) ?_
      split
      · refine .read (yields_variantCount hg hlt) ?_
        split
        · exact buildsAt_markDecorator hlt
        · exact .pure trivial
      · exact .pure trivial
    · exact .pure trivial

theorem buildsAt_markField (hg : g.Closed) (current : TypeDecl) (r : TypeRef) {node : Node}
    (hnode : node.id < g.size) : BuildsAt (markField current r node) s g fun _ _ => True := by
  have hholder : ∀ (s : RoleCounts) g', g.Grown g' →
      BuildsAt (markHolder current node.id) s g' fun _ _ => True :=
    fun s g' hgrown => buildsAt_markHolder (hgrown.closed hg) current (hgrown.lt hnode)
  have hdecorator : ∀ (s : RoleCounts) g', g.Grown g' → BuildsAt (do
      if Text.contains r.simple "Decorator" then
        markDecorator node.id
      markHolder current node.id) s g' fun _ _ => True := by
    intro s g₁ hgrown₁
    simp only
    split
    · exact (buildsAt_markDecorator (hgrown₁.lt hnode)).bind
        fun _ s g₂ hgrown₂ _ => hholder s g₂ (hgrown₁.trans hgrown₂)
    · exact hholder s g₁ hgrown₁
  obtain ⟨strategy, hstrategy⟩ := yields_isStrategy hg r hnode
  refine .read hstrategy ?_
  cases strategy with
  | true =>
      refine (buildsAt_addLabel (l := .strategy) hnode rfl).bind fun _ s g₁ hgrown₁ _ => ?_
      exact BuildsAt.count.bind fun _ s g₂ hgrown₂ _ => hdecorator s g₂ (hgrown₁.trans hgrown₂)
  | false => exact hdecorator s g .refl

theorem builds_rolesOfField (c : Context) (d : FieldDecl) : Builds (rolesOfField c d) := by
  intro s g hg
  unfold rolesOfField
  split
  · rename_i r current _ _
    split
    · exact .pure trivial
    · obtain ⟨found, hfound⟩ := Target.yields_resolve (g := g) r c.imports
      refine .read hfound ?_
      split
      · exact .pure trivial
      · rename_i name
        refine .read (yields_findByName name) ?_
        split
        · exact .pure trivial
        · rename_i node hnode
          split
          · exact .pure trivial
          · exact buildsAt_markField hg current r (lt_of_findByName hnode)
  · exact .pure trivial

theorem builds_rolesOfCall (c : Context) (i : Invocation) : Builds (rolesOfCall c i) := by
  intro s g hg
  refine (buildsAt_getOrCreateNode i.declaring.isType_nodeKind (by simp) (by simp)).bind
    fun node s g' hgrown hnode => ?_
  have hlt := Graph.lt_size_of_has hnode
  refine .read (yields_variantCount (hgrown.closed hg) hlt) ?_
  split
  · exact .pure trivial
  · split
    · exact (buildsAt_addLabel hlt rfl).bind fun _ _ _ _ _ => .count
    · exact .pure trivial

theorem building_roles : roles.Building where
  enter _ _ := .pure _
  exit _ _ := .pure _
  method _ _ := .pure _
  field := builds_rolesOfField
  invocation := builds_rolesOfCall
  returning _ _ := .pure _

end Roles

/-! ### Factories -/

theorem builds_factoryByName (d : TypeDecl) : Builds (factoryByName d) := by
  intro s g _
  unfold factoryByName
  split
  · refine (buildsAt_getOrCreateNode d.isType_nodeKind (by simp) (by simp)).bind
      fun node s g' _ hnode => ?_
    exact (buildsAt_addLabel (Graph.lt_size_of_has hnode) rfl).bind fun _ _ _ _ _ => .count
  · exact .pure trivial

theorem builds_factoryByReturn (r : ReturnSite) : Builds (factoryByReturn r) := by
  intro s g hg
  unfold factoryByReturn
  split
  · exact .pure trivial
  · rename_i declaring result returned _
    refine .read (yields_findByName result.erasure) ?_
    refine (buildsAt_getOrCreateNode declaring.isType_nodeKind (by simp) (by simp)).bind
      fun maker s g' hgrown hmaker => ?_
    refine .read (yields_findByName returned.erasure) ?_
    split
    · rename_i base product hbase hproduct
      have hlt := hgrown.lt (lt_of_findByName hbase)
      refine .read (yields_relatedTo hlt product.id) ?_
      split
      · refine .read (yields_variantCount (hgrown.closed hg) hlt) ?_
        split
        · exact (buildsAt_addLabel (Graph.lt_size_of_has hmaker) rfl).bind
            fun _ _ _ _ _ => .count
        · exact .pure trivial
      · exact .pure trivial
    · exact .pure trivial

theorem building_factories : factories.Building where
  enter _ d := (builds_factoryByName d).bind fun _ => .pure _
  exit _ _ := .pure _
  method _ _ := .pure _
  field _ _ := .pure _
  invocation _ _ := .pure _
  returning _ r := builds_factoryByReturn r

/-! ### Compositions -/

section Compositions

variable {s : CompositionCounts} {g : Graph}

/-- A composition edge, if there is no edge yet. -/
theorem buildsAt_compose {parent used : Node} (hparent : (g.entity parent.id).isType = true)
    (hused : used.id < g.size) (hscope : (g.entity used.id).has .outOfScope = false) :
    BuildsAt (compose parent used) s g fun _ _ => True := by
  have hlt := Graph.lt_size_of_isType hparent
  refine .read (yields_relatedTo hlt used.id) ?_
  split
  · exact .pure trivial
  · exact (BuildsAt.lift (Q := fun _ _ => True) (yields_link hlt hused .composing)
      (.single (.compose hparent hused hscope)) trivial).bind fun _ _ _ _ _ => .count

/-- The used type, if any, is a node in scope. -/
theorem yields_usedType (r : TypeRef) (imports : List Import) :
    ∃ used, Yields (usedType r imports) g used g ∧
      ∀ n, used = some n → n.id < g.size ∧ (g.entity n.id).has .outOfScope = false := by
  obtain ⟨found, hfound⟩ := Target.yields_resolve (g := g) r imports
  cases found with
  | none => exact ⟨none, hfound.bind (Yields.pure _ _), fun n hn => by simp at hn⟩
  | some name =>
      refine ⟨_, hfound.bind ((yields_findByName name).bind_pure _), fun n hn => ?_⟩
      obtain ⟨hfirst, hscope⟩ := Option.filter_eq_some_iff.mp hn
      obtain ⟨hlt, hnode, -⟩ := Graph.firstWhere_eq_some hfirst
      rw [hnode] at hscope
      exact ⟨hlt, by simpa [Entity.isOutOfScope] using hscope⟩

theorem builds_composeField (c : Context) (d : FieldDecl) : Builds (composeField c d) := by
  intro s g hg
  unfold composeField
  split
  · rename_i r current _ _
    split
    · exact .pure trivial
    · obtain ⟨used, hyields, hused⟩ := yields_usedType (g := g) r c.imports
      refine .read hyields ?_
      split
      · exact .pure trivial
      · rename_i used
        obtain ⟨hlt, hscope⟩ := hused used rfl
        refine (buildsAt_getOrCreateNode current.toRef.isType_nodeKind (by simp) (by simp)).bind
          fun parent s g' hgrown hparent => ?_
        exact buildsAt_compose (isType_of_has current.toRef.isType_nodeKind hparent)
          (hgrown.lt hlt) (hgrown.inScope hlt hscope)
  · exact .pure trivial

theorem buildsAt_composeParameter {c : Context} {parent : Node} {r : TypeRef}
    (hparent : (g.entity parent.id).isType = true) :
    BuildsAt (composeParameter c parent r) s g fun _ _ => True := by
  obtain ⟨used, hyields, hused⟩ := yields_usedType (g := g) r c.imports
  refine .read hyields ?_
  split
  · exact .pure trivial
  · rename_i used
    obtain ⟨hlt, hscope⟩ := hused used rfl
    exact buildsAt_compose hparent hlt hscope

theorem buildsAt_composeResult {parent : Node} {r : TypeRef}
    (hparent : (g.entity parent.id).isType = true) :
    BuildsAt (composeResult parent r) s g fun _ _ => True := by
  refine .read (yields_findByName r.erasure) ?_
  split
  · exact .pure trivial
  · rename_i returned hreturned
    split
    · exact .pure trivial
    · rename_i hscope
      obtain ⟨hlt, hnode, -⟩ := Graph.firstWhere_eq_some hreturned
      rw [Bool.or_eq_true, not_or, hnode] at hscope
      exact buildsAt_compose hparent hlt (Bool.eq_false_iff.mpr hscope.1)

theorem builds_composeMethod (c : Context) (d : MethodDecl) : Builds (composeMethod c d) := by
  intro s g hg
  unfold composeMethod
  split
  · exact .pure trivial
  · rename_i declaring _
    refine (buildsAt_getOrCreateNode declaring.isType_nodeKind (by simp) (by simp)).bind
      fun parent s g hgrown hparent => ?_
    have howner := isType_of_has declaring.isType_nodeKind hparent
    refine (BuildsAt.forM fun r _ s g' hgrown => ?_).bind fun _ s g' hgrown _ => ?_
    · exact buildsAt_composeParameter (hgrown.isType howner)
    · split
      · exact .pure trivial
      · exact BuildsAt.forM fun r _ s g'' hgrown' =>
          buildsAt_composeResult ((hgrown.trans hgrown').isType howner)

theorem building_compositions : compositions.Building where
  enter _ _ := .pure _
  exit _ _ := .pure _
  method := builds_composeMethod
  field := builds_composeField
  invocation _ _ := .pure _
  returning _ _ := .pure _

end Compositions

end Sweep

end Variability
