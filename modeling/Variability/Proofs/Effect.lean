import Variability.Proofs.Analysis
import Variability.Proofs.Delivery

/-!
# What the handlers do to the graph

Each handler of the five sweeps, as a function from graphs to graphs. The functions say on one graph
what the handlers say in a session: what is looked up is a question about the graph, and what is
written is an update of it. On every closed graph a handler turns the graph into the value of its
function, so that a whole sweep is a fold of such functions over the deliveries. Two sweeps count
the links they make; counters that one link keeps in step with the graph, the sweep keeps so.

## Main results

* `Session.yields_ask`: asking for a node, as a function on graphs.
* `Sweep.acting_declarations`, `Sweep.acting_supertypes`, `Sweep.acting_roles`,
  `Sweep.acting_factories`, `Sweep.acting_compositions`: the sweeps.
* `Sweep.tallying_supertypes`, `Sweep.tallying_compositions`: the two that count.
-/

namespace Variability

open Session

/-- The names that a reference may be taken to mean in a file: the erased name itself, the first
single-type import that ends in the simple name, and all names of that ending in a package that is
imported on demand. -/
def TypeRef.MayMean (r : TypeRef) (imports : List Import) (name : String) : Prop :=
  name = r.erasure ∨ Target.singleImport r imports = some name ∨
    ∃ i ∈ imports, i.onDemand = true ∧ Text.startsWith name (i.path ++ ".") = true ∧
      Text.endsWith name ("." ++ Name.erasure r.simple) = true

/-! ### Questions and updates -/

namespace Graph

/-- The first node with a name. -/
def named (g : Graph) (name : String) : Option Node := g.firstWhere fun e => e.name == name

/-- The number of the node that has a name and a kind; if none has, the next free number. -/
def idFor (g : Graph) (name : String) (kind : EntityKind) : NodeId :=
  ((g.firstWhere (isNamed name kind)).map (·.id)).getD g.size

/-- Asks for the node with a name and a kind: labels it, or gives it a node. -/
def ask (g : Graph) (name : String) (kind : EntityKind) (onCreate onMatch : List Label) : Graph :=
  match g.firstWhere (isNamed name kind) with
  | some n => g.label n.id onMatch
  | none => g.addNode name (.kind kind :: onCreate)

/-- Labels a node under a condition. -/
def labelIf (g : Graph) (b : Bool) (id : NodeId) (l : Label) : Graph :=
  if b then g.label id [l] else g

/-- The name of the first type with a simple name in one of the packages, in package order. -/
def inPackages (g : Graph) (simple : String) (packages : List String) : Option String :=
  packages.findSome? fun package =>
    (g.firstWhere fun e => Name.lastSegment e.name == Name.lastSegment simple &&
      e.isInPackage simple package).map (·.name)

/-- The name of the node that a reference points to, if it points into the graph. -/
def target? (g : Graph) (r : TypeRef) (imports : List Import) : Option String :=
  match g.named r.erasure with
  | some _ => some r.erasure
  | none =>
    match Target.singleImport r imports with
    | some name => some name
    | none => g.inPackages (Name.erasure r.simple) ((imports.filter (·.onDemand)).map (·.path))

/-- Whether some edge leads from one node directly to another. -/
def isRelated (g : Graph) (source target : NodeId) : Bool :=
  (g.edgesFrom source).any (·.target == target)

/-- Whether the type named `name` extends or implements the type of a node. -/
def inheritsFrom (g : Graph) (name : String) (id : NodeId) : Bool :=
  (g.supertypesOf name .extending .classType).head?.any (·.id == id) ||
    (g.supertypesOf name .implementing .interfaceType).any (·.id == id)

variable {g : Graph}

theorem isRelated_iff {source target : NodeId} :
    g.isRelated source target = true ↔ ∃ r, g.Step r source target := by
  simp only [isRelated, edgesFrom_eq, List.any_eq_true, List.mem_filter, Array.mem_toList_iff,
    beq_iff_eq, Step]
  constructor
  · rintro ⟨⟨_, relation, _⟩, ⟨he, rfl⟩, rfl⟩
    exact ⟨relation, he⟩
  · rintro ⟨r, he⟩
    exact ⟨⟨source, r, target⟩, ⟨he, rfl⟩, rfl⟩

@[simp] theorem edges_ask (name : String) (kind : EntityKind) (onCreate onMatch : List Label) :
    (g.ask name kind onCreate onMatch).edges = g.edges := by
  unfold ask
  split <;> rfl

@[simp] theorem edgeCount_ask (p : Relation → Bool) (name : String) (kind : EntityKind)
    (onCreate onMatch : List Label) :
    (g.ask name kind onCreate onMatch).edgeCount p = g.edgeCount p := by
  rw [edgeCount, edgeCount, edges_ask]

@[simp] theorem edges_labelIf (b : Bool) (id : NodeId) (l : Label) :
    (g.labelIf b id l).edges = g.edges := by
  unfold labelIf
  split <;> rfl

/-- A new node adds no label that it does not have. -/
theorem has_addNode_of_not_mem {name : String} {ls : List Label} {l : Label} (hl : l ∉ ls)
    (n : NodeId) : ((g.addNode name ls).entity n).has l = (g.entity n).has l := by
  rw [entity_addNode]
  split
  · rename_i hn
    rw [entity_of_le (Nat.le_of_eq hn.symm)]
    simp [Entity.has, hl]
  · rfl

/-- Asking for a node adds no labels but those it is asked for with. -/
theorem has_ask_of_not_mem {name : String} {kind : EntityKind} {onCreate onMatch : List Label}
    {l : Label} (hcreate : l ∉ Label.kind kind :: onCreate) (hmatch : l ∉ onMatch) (n : NodeId) :
    ((g.ask name kind onCreate onMatch).entity n).has l = (g.entity n).has l := by
  unfold ask
  split
  · exact has_label_of_not_mem hmatch
  · exact has_addNode_of_not_mem hcreate n

/-- Labelling a node adds the label to this node only. -/
theorem has_of_has_labelIf {b : Bool} {id n : NodeId} {l l' : Label}
    (h : ((g.labelIf b id l).entity n).has l' = true) :
    (g.entity n).has l' = true ∨ (b = true ∧ n = id ∧ l' = l) := by
  unfold labelIf at h
  split at h
  · rename_i hb
    rw [label, entity_update] at h
    split at h
    · rename_i hid
      rw [Entity.has_label, Bool.or_eq_true, decide_eq_true_eq, List.mem_singleton] at h
      exact h.imp_right fun hl => ⟨hb, hid.1.symm, hl⟩
    · exact Or.inl h
  · exact Or.inl h

/-- Other labels than the one that is noted stay. -/
theorem has_labelIf_of_ne {b : Bool} {id : NodeId} {l l' : Label} (hl : l' ≠ l) (n : NodeId) :
    ((g.labelIf b id l).entity n).has l' = (g.entity n).has l' := by
  unfold labelIf
  split
  · exact has_label_of_not_mem (by simpa using hl)
  · rfl

/-- What the reference points to, if anything, is one of the names that it may mean. -/
theorem mayMean_of_target {r : TypeRef} {imports : List Import} {name : String}
    (h : g.target? r imports = some name) : r.MayMean imports name := by
  unfold target? at h
  split at h
  · exact Or.inl (Option.some.inj h).symm
  · split at h
    · rename_i hsingle
      rw [h] at hsingle
      exact Or.inr (Or.inl hsingle)
    · obtain ⟨package, hpackage, hfound⟩ := List.exists_of_findSome?_eq_some h
      obtain ⟨n, hn, rfl⟩ := Option.map_eq_some_iff.mp hfound
      obtain ⟨i, hi, rfl⟩ := List.mem_map.mp hpackage
      obtain ⟨himport, honDemand⟩ := List.mem_filter.mp hi
      obtain ⟨-, hnode, hc⟩ := firstWhere_eq_some hn
      obtain ⟨-, hin⟩ := (Bool.and_eq_true _ _).mp hc
      obtain ⟨htype, hends⟩ := (Bool.and_eq_true _ _).mp hin
      obtain ⟨-, hstarts⟩ := (Bool.and_eq_true _ _).mp htype
      have hname : n.name = (g.entity n.id).name := congrArg (fun m : Node => m.name) hnode
      rw [← hname] at hstarts hends
      exact Or.inr (Or.inr ⟨i, himport, honDemand, hstarts, hends⟩)

/-- Where a reference points to nothing, its erased name stands in for what it means. -/
theorem mayMean_target_getD (g : Graph) (r : TypeRef) (imports : List Import) :
    r.MayMean imports ((g.target? r imports).getD r.erasure) := by
  cases htarget : g.target? r imports with
  | none => exact Or.inl rfl
  | some name => exact mayMean_of_target htarget

end Graph

/-! ### Handlers -/

namespace Effect

open Sweep (Context)

/-- A declared type gets its node. -/
def declareType (d : TypeDecl) (g : Graph) : Graph :=
  g.ask d.qualified d.nodeKind d.labels d.labels

/-- A declared member gets its node, below the node of the declaring type. -/
def declareMember (c : Context) (d : MethodDecl) (g : Graph) : Graph :=
  match d.declaring with
  | none => g
  | some declaring =>
    let owned := g.ask declaring.qualified declaring.nodeKind [] []
    (owned.addNode d.name (.kind d.nodeKind :: d.labels (c.current?.any (·.isPublic)))).addEdge
      (g.idFor declaring.qualified declaring.nodeKind) .member owned.size

/-- The first sweep. -/
def declarations (c : Context) : Event → Graph → Graph
  | .entered d => declareType d
  | .method d => declareMember c d
  | _ => id

/-- A type is linked from one of its supertypes. -/
def linkSupertype (c : Context) (subtype : NodeId) (relation : Relation) (g : Graph)
    (r : TypeRef) : Graph :=
  let name := (g.target? r c.imports).getD r.erasure
  (g.ask name (Sweep.supertypeKind relation) [.outOfScope] []).addEdge
    (g.idFor name (Sweep.supertypeKind relation)) relation subtype

/-- The counters past such a link: it is corrected unless the reference points to its own name. -/
def countLink (c : Context) (g : Graph) (r : TypeRef) (n : Sweep.SupertypeCounts) :
    Sweep.SupertypeCounts :=
  if g.target? r c.imports = some r.erasure then { n with links := n.links + 1 }
  else { links := n.links + 1, corrected := n.corrected + 1 }

/-- A declared type is linked from its supertypes, superclass first. -/
def linkSupertypes (c : Context) (d : TypeDecl) (g : Graph) : Graph :=
  match g.firstWhere (isNamed d.qualified d.toRef.nodeKind) with
  | none => g
  | some this =>
    d.interfaces.foldl (linkSupertype c this.id .implementing)
      (d.superclass.toList.foldl (linkSupertype c this.id .extending) g)

/-- The second sweep. -/
def supertypes (c : Context) : Event → Graph → Graph
  | .entered d => linkSupertypes c d
  | _ => id

/-- The type that holds a field may be a decorator. -/
def markHolder (current : TypeDecl) (field : NodeId) (g : Graph) : Graph :=
  match g.named current.qualified with
  | none => g
  | some holder =>
    g.labelIf (g.inheritsFrom current.qualified field && decide (g.variantCount field ≥ 2) &&
      decide (g.variantCount holder.id ≥ 1)) holder.id .decorator

/-- Whether a field type is a strategy. -/
def isStrategy (r : TypeRef) (id : NodeId) (g : Graph) : Bool :=
  Text.contains r.simple "Strategy" || decide (g.variantCount id ≥ 2)

/-- The type of a field, and the type that holds it. -/
def markField (current : TypeDecl) (r : TypeRef) (id : NodeId) (g : Graph) : Graph :=
  markHolder current id ((g.labelIf (isStrategy r id g) id .strategy).labelIf
    (Text.contains r.simple "Decorator") id .decorator)

/-- A field of the current type. -/
def rolesOfField (c : Context) (d : FieldDecl) (g : Graph) : Graph :=
  match d.fieldType, c.current? with
  | some r, some current =>
    if r.isEnum then g
    else
      match (g.target? r c.imports).bind g.named with
      | none => g
      | some node => if node.isOutOfScope then g else markField current r node.id g
  | _, _ => g

/-- A call inside the current type. -/
def rolesOfCall (c : Context) (i : Invocation) (g : Graph) : Graph :=
  let asked := g.ask i.declaring.erasure i.declaring.nodeKind [.outOfScope] []
  let id := g.idFor i.declaring.erasure i.declaring.nodeKind
  asked.labelIf (asked.variantCount id != 0 && Sweep.isTemplateCall c i) id .template

/-- The third sweep. -/
def roles (c : Context) : Event → Graph → Graph
  | .field d => rolesOfField c d
  | .invocation (some i) => rolesOfCall c i
  | _ => id

/-- A type that is called a factory. -/
def factoryByName (d : TypeDecl) (g : Graph) : Graph :=
  if Text.contains d.qualified "Factory" then
    (g.ask d.qualified d.nodeKind [] []).label (g.idFor d.qualified d.nodeKind) [.factory]
  else g

/-- Whether what is returned is a variant of a return type that has two of them. -/
def isProduct (base product : Option Node) (g : Graph) : Bool :=
  match base, product with
  | some base, some product =>
    g.isRelated base.id product.id && decide (g.variantCount base.id ≥ 2)
  | _, _ => false

/-- A type whose method returns a variant of its return type. -/
def factoryByReturn (s : ReturnSite) (g : Graph) : Graph :=
  match Sweep.ReturnSite.product? s with
  | none => g
  | some (declaring, result, returned) =>
    let asked := g.ask declaring.erasure declaring.nodeKind [.outOfScope] []
    asked.labelIf (isProduct (g.named result.erasure) (asked.named returned.erasure) asked)
      (g.idFor declaring.erasure declaring.nodeKind) .factory

/-- The fourth sweep. -/
def factories : Event → Graph → Graph
  | .entered d => factoryByName d
  | .returning s => factoryByReturn s
  | _ => id

/-- A type is linked to one that it uses, unless some edge leads there already. -/
def compose (parent used : NodeId) (g : Graph) : Graph :=
  if g.isRelated parent used then g else g.addEdge parent .composing used

/-- The node in scope that a reference points to. -/
def usedType (r : TypeRef) (imports : List Import) (g : Graph) : Option Node :=
  ((g.target? r imports).bind g.named).filter (!·.isOutOfScope)

/-- The current type is linked to the type of a field. -/
def composeField (c : Context) (d : FieldDecl) (g : Graph) : Graph :=
  match d.fieldType, c.current? with
  | some r, some current =>
    if r.isEnum then g
    else
      match usedType r c.imports g with
      | none => g
      | some used =>
        compose (g.idFor current.qualified current.toRef.nodeKind) used.id
          (g.ask current.qualified current.toRef.nodeKind [] [])
  | _, _ => g

/-- A type is linked to the type of a parameter. -/
def composeParameter (c : Context) (parent : NodeId) (g : Graph) (r : TypeRef) : Graph :=
  match usedType r c.imports g with
  | none => g
  | some used => compose parent used.id g

/-- A type is linked to a type that it returns. -/
def composeResult (parent : NodeId) (name : String) (g : Graph) (r : TypeRef) : Graph :=
  match g.named r.erasure with
  | none => g
  | some returned =>
    if returned.isOutOfScope || returned.name == name then g else compose parent returned.id g

/-- A type is linked to what a method of it takes and returns. -/
def composeSignature (c : Context) (d : MethodDecl) (parent : NodeId) (name : String) (g : Graph) :
    Graph :=
  let taken := (d.parameters.filterMap id).foldl (composeParameter c parent) g
  if d.isConstructor then taken else d.returnType.toList.foldl (composeResult parent name) taken

/-- The declaring type of a method is linked to the method's parameter types and return type. -/
def composeMethod (c : Context) (d : MethodDecl) (g : Graph) : Graph :=
  match d.declaring with
  | none => g
  | some declaring =>
    composeSignature c d (g.idFor declaring.qualified declaring.nodeKind) declaring.qualified
      (g.ask declaring.qualified declaring.nodeKind [] [])

/-- The fifth sweep. -/
def compositions (c : Context) : Event → Graph → Graph
  | .field d => composeField c d
  | .method d => composeMethod c d
  | _ => id

end Effect

/-! ### Asking and looking up -/

namespace Session

variable {σ : Type} {g : Graph}

/-- Asking for a node answers the node of that name and kind. -/
theorem yields_ask {name : String} {kind : EntityKind} {onCreate onMatch : List Label} :
    Yields (getOrCreateNode name kind onCreate onMatch) g
      ((g.ask name kind onCreate onMatch).nodeAt (g.idFor name kind))
      (g.ask name kind onCreate onMatch) := by
  cases hfirst : g.firstWhere (isNamed name kind) with
  | some n =>
      simp only [Graph.ask, Graph.idFor, hfirst]
      exact yields_getOrCreateNode_of_some onCreate onMatch hfirst
  | none =>
      simp only [Graph.ask, Graph.idFor, hfirst]
      exact yields_getOrCreateNode_of_none onCreate onMatch hfirst

theorem turns_ask {name : String} {kind : EntityKind} {onCreate onMatch : List Label} :
    Turns (liftM (getOrCreateNode name kind onCreate onMatch) : StateT σ Session Node) g
      ((g.ask name kind onCreate onMatch).nodeAt (g.idFor name kind))
      (g.ask name kind onCreate onMatch) :=
  .lift yields_ask

theorem turnsIn_ask {I : σ → Graph → Prop} {name : String} {kind : EntityKind}
    {onCreate onMatch : List Label} (hI : ∀ s, I s g → I s (g.ask name kind onCreate onMatch)) :
    TurnsIn I (liftM (getOrCreateNode name kind onCreate onMatch) : StateT σ Session Node) g
      ((g.ask name kind onCreate onMatch).nodeAt (g.idFor name kind))
      (g.ask name kind onCreate onMatch) :=
  .lift yields_ask hI

/-- Asking for a type lets the graph grow. -/
theorem grown_ask {name : String} {kind : EntityKind} {onCreate onMatch : List Label}
    (hkind : kind.isType = true) (hcreate : ∀ l ∈ onCreate, l.isNote = true ∨ l = .outOfScope)
    (hmatch : ∀ l ∈ onMatch, l.isNote = true) : g.Grown (g.ask name kind onCreate onMatch) :=
  (turns_ask (σ := Unit)).grown
    (buildsAt_getOrCreateNode (s := ()) hkind hcreate hmatch)

/-- A node that was asked for is there, of the kind asked for. -/
theorem has_idFor (g : Graph) (name : String) (kind : EntityKind) (onCreate : List Label) :
    ((g.ask name kind onCreate []).entity (g.idFor name kind)).has (.kind kind) = true := by
  cases hfirst : g.firstWhere (isNamed name kind) with
  | some n =>
      simp only [Graph.ask, Graph.idFor, hfirst, Graph.label_nil]
      exact ((Bool.and_eq_true _ _).mp (Graph.firstWhere_eq_some hfirst).2.2).2
  | none =>
      simp [Graph.ask, Graph.idFor, hfirst, Graph.entity_addNode, Entity.has]

end Session

namespace Target

variable {g : Graph}

theorem yields_inPackages (simple : String) (packages : List String) :
    Yields (firstInPackages simple packages) g (g.inPackages simple packages) g := by
  induction packages with
  | nil => exact Yields.pure _ _
  | cons package packages ih =>
      have hfind := yields_findInPackage (g := g) simple package
      rw [Graph.inPackages, List.findSome?_cons]
      cases hfirst : g.firstWhere fun e => Name.lastSegment e.name == Name.lastSegment simple &&
          e.isInPackage simple package with
      | some n =>
          rw [hfirst] at hfind
          exact hfind.bind (Yields.pure _ _)
      | none =>
          rw [hfirst] at hfind
          exact hfind.bind ih

/-- Resolving a reference, as a question about the graph. -/
theorem yields_target (r : TypeRef) (imports : List Import) :
    Yields (resolve r imports) g (g.target? r imports) g := by
  have hexact : Yields (exact r) g ((g.named r.erasure).map fun _ => r.erasure) g :=
    (yields_findByName r.erasure).bind_pure _
  unfold Graph.target?
  cases hnamed : g.named r.erasure with
  | some n =>
      rw [hnamed] at hexact
      exact hexact.bind (Yields.pure _ _)
  | none =>
      rw [hnamed] at hexact
      refine hexact.bind ?_
      rw [Option.map_none]
      cases hsingle : singleImport r imports with
      | some name => exact Yields.pure _ _
      | none => exact yields_inPackages _ _

end Target

namespace Sweep

variable {g : Graph}

/-! ### Declarations -/

theorem turns_declareType (d : TypeDecl) : Turns (declareType d) g () (Effect.declareType d g) :=
  turns_ask.bind .count

theorem turns_declareMember (c : Context) (d : MethodDecl) :
    Turns (declareMember c d) g () (Effect.declareMember c d g) := by
  unfold declareMember Effect.declareMember
  cases d.declaring with
  | none => exact .pure ()
  | some declaring =>
      have hlt := Graph.lt_size_of_has (has_idFor g declaring.qualified declaring.nodeKind [])
      refine turns_ask.bind ((Turns.lift (yields_createNode _ _ _)).bind ?_)
      refine (Turns.lift (yields_link ?_ ?_ .member)).bind .count
      · rw [Graph.size_addNode]
        exact Nat.lt_succ_of_lt hlt
      · rw [Graph.size_addNode]
        exact Nat.lt_succ_self _

theorem acting_declarations : declarations.Acting Effect.declarations where
  enter _ d _ _ := (turns_declareType d).bind (.pure _)
  exit _ _ _ := .pure _
  method c d _ _ := turns_declareMember c d
  field _ _ _ _ := .pure _
  invocation _ _ _ _ := .pure _
  returning _ _ _ _ := .pure _

/-! ### Supertypes -/

theorem isType_supertypeKind (relation : Relation) : (supertypeKind relation).isType = true := by
  cases relation <;> rfl

/-- No node gets lost where a supertype is linked. -/
theorem lt_size_linkSupertype {c : Context} {subtype : NodeId} {relation : Relation} {r : TypeRef}
    {n : NodeId} (hn : n < g.size) : n < (Effect.linkSupertype c subtype relation g r).size :=
  (grown_ask (isType_supertypeKind relation) (by simp) (by simp)).lt hn

/-- A declared type is looked for under the kind of a reference to it. -/
theorem yields_findSubtype (d : TypeDecl) :
    Yields (findByLabelsAndName [if d.isInterface then .interfaceType else .classType] d.qualified)
      g (g.firstWhere (isNamed d.qualified d.toRef.nodeKind)) g := by
  have hfind := yields_findByLabelsAndName (g := g)
    [if d.isInterface then .interfaceType else .classType] d.qualified
  have hnamed : (fun e : Entity => e.name == d.qualified &&
      [if d.isInterface then Label.interfaceType else .classType].all e.has) =
      isNamed d.qualified d.toRef.nodeKind := by
    funext e
    unfold isNamed TypeRef.nodeKind
    rw [List.all_cons, List.all_nil, Bool.and_true]
    cases hd : d.isInterface <;> simp [TypeDecl.toRef, hd]
  rw [hnamed] at hfind
  exact hfind

/-- A link to a supertype, with its counters. -/
theorem yields_linkSupertype {c : Context} {subtype : NodeId} {relation : Relation} {r : TypeRef}
    (hsubtype : subtype < g.size) (n : SupertypeCounts) :
    Yields ((linkSupertype c subtype relation r).run n) g ((), Effect.countLink c g r n)
      (Effect.linkSupertype c subtype relation g r) := by
  have hrest : ∀ n : SupertypeCounts, Yields (StateT.run (do
      let parent ← getOrCreateNode ((g.target? r c.imports).getD r.erasure)
        (supertypeKind relation) [.outOfScope] []
      link parent.id subtype relation
      modify fun n => { n with links := n.links + 1 }) n) g
      ((), { n with links := n.links + 1 }) (Effect.linkSupertype c subtype relation g r) := by
    have hlt := Graph.lt_size_of_has (has_idFor g ((g.target? r c.imports).getD r.erasure)
      (supertypeKind relation) [.outOfScope])
    have hsubtype' : subtype < (Effect.linkSupertype c subtype relation g r).size :=
      lt_size_linkSupertype hsubtype
    have hlink := yields_link hlt hsubtype' relation
    exact fun n => (yields_ask.lift n).bind ((hlink.lift n).bind (Yields.pure _ _))
  have hcorrected : Yields (StateT.run (modify fun n : SupertypeCounts =>
      { n with corrected := n.corrected + 1 }) n) g
      ((), { n with corrected := n.corrected + 1 }) g := Yields.pure _ _
  refine ((Target.yields_target r c.imports).lift n).run_bind ?_
  unfold Effect.countLink
  split
  · exact hrest n
  · exact hcorrected.run_bind (hrest _)

/-- What holds of the counters and the graph stays true past every counted link. -/
def SupertypeCounts.Kept (I : SupertypeCounts → Graph → Prop) : Prop :=
  ∀ n g c subtype relation r, relation ∈ Relation.inheritance → I n g →
    I (Effect.countLink c g r n) (Effect.linkSupertype c subtype relation g r)

variable {I : SupertypeCounts → Graph → Prop}

theorem turnsIn_linkSupertype (hI : SupertypeCounts.Kept I) {c : Context} {subtype : NodeId}
    {relation : Relation} (hrelation : relation ∈ Relation.inheritance) {r : TypeRef}
    (hsubtype : subtype < g.size) :
    TurnsIn I (linkSupertype c subtype relation r) g ()
      (Effect.linkSupertype c subtype relation g r) :=
  fun n hn => ⟨_, yields_linkSupertype hsubtype n, hI n g c subtype relation r hrelation hn⟩

theorem turnsIn_linkSupertypes (hI : SupertypeCounts.Kept I) (c : Context) (d : TypeDecl) :
    TurnsIn I (linkSupertypes c d) g () (Effect.linkSupertypes c d g) := by
  refine (TurnsIn.read (yields_findSubtype d)).bind ?_
  unfold Effect.linkSupertypes
  cases hthis : g.firstWhere (isNamed d.qualified d.toRef.nodeKind) with
  | none => exact .pure ()
  | some this =>
      have hlt : this.id < g.size := (Graph.firstWhere_eq_some hthis).1
      have hlink : ∀ relation ∈ Relation.inheritance, ∀ r : TypeRef, ∀ g : Graph,
          this.id < g.size →
          TurnsIn I (linkSupertype c this.id relation r) g ()
            (Effect.linkSupertype c this.id relation g r) ∧
          this.id < (Effect.linkSupertype c this.id relation g r).size :=
        fun relation hrelation r g h =>
          ⟨turnsIn_linkSupertype hI hrelation h, lt_size_linkSupertype h⟩
      obtain ⟨hextending, hlt'⟩ :=
        TurnsIn.forM (fun r _ => hlink .extending (by decide) r) hlt
      exact hextending.bind
        (TurnsIn.forM (fun r _ => hlink .implementing (by decide) r) hlt').1

theorem tallying_supertypes (hI : SupertypeCounts.Kept I) :
    supertypes.Tallying Effect.supertypes I where
  enter c d _ _ := (turnsIn_linkSupertypes hI c d).bind (.pure _)
  exit _ _ _ := .pure _
  method _ _ _ _ := .pure _
  field _ _ _ _ := .pure _
  invocation _ _ _ _ := .pure _
  returning _ _ _ _ := .pure _

theorem acting_supertypes : supertypes.Acting Effect.supertypes :=
  .of_tallying (tallying_supertypes fun _ _ _ _ _ _ _ _ => trivial)

/-! ### Roles -/

theorem yields_graph_inheritsFrom (hg : g.Closed) (name : String) (id : NodeId) :
    Yields (inheritsFrom name id) g (g.inheritsFrom name id) g := by
  have hsuperclass := (yields_supertypesOf hg name .extending .classType).bind_pure List.head?
  have hinterfaces := yields_supertypesOf hg name .implementing .interfaceType
  exact hsuperclass.bind (hinterfaces.bind (Yields.pure _ _))

theorem yields_effect_isStrategy (hg : g.Closed) (r : TypeRef) {id : NodeId} (hid : id < g.size) :
    Yields (isStrategy r id) g (Effect.isStrategy r id g) g := by
  unfold isStrategy Effect.isStrategy
  cases Text.contains r.simple "Strategy" with
  | true => exact Yields.pure _ _
  | false => exact (yields_variantCount hg hid).bind_pure _

theorem turns_markDecorator {id : NodeId} (hid : id < g.size) :
    Turns (markDecorator id) g () (g.label id [.decorator]) :=
  (Turns.lift (yields_addLabel hid _)).bind .count

theorem turns_markHolder (hg : g.Closed) (current : TypeDecl) {field : NodeId}
    (hfield : field < g.size) :
    Turns (markHolder current field) g () (Effect.markHolder current field g) := by
  refine (Turns.lift (yields_findByName current.qualified)).bind ?_
  unfold Effect.markHolder Graph.named
  cases hholder : g.firstWhere fun e => e.name == current.qualified with
  | none => exact .pure ()
  | some holder =>
      have hlt := lt_of_findByName hholder
      refine (Turns.lift (yields_graph_inheritsFrom hg current.qualified field)).bind ?_
      cases g.inheritsFrom current.qualified field with
      | false => exact .pure ()
      | true =>
          refine (Turns.lift (yields_variantCount hg hfield)).bind ?_
          by_cases htwo : g.variantCount field ≥ 2
          · rw [if_pos htwo]
            refine (Turns.lift (yields_variantCount hg hlt)).bind ?_
            by_cases hone : g.variantCount holder.id ≥ 1
            · simpa [Graph.labelIf, htwo, hone] using turns_markDecorator hlt
            · simpa [Graph.labelIf, hone] using Turns.pure ()
          · simpa [Graph.labelIf, htwo] using Turns.pure ()

theorem turns_markField (hg : g.Closed) (current : TypeDecl) (r : TypeRef) {node : Node}
    (hnode : node.id < g.size) :
    Turns (markField current r node) g () (Effect.markField current r node.id g) := by
  have hholder : ∀ g : Graph, g.Closed → node.id < g.size →
      Turns (markHolder current node.id) g () (Effect.markHolder current node.id g) :=
    fun g hg hnode => turns_markHolder hg current hnode
  have hdecorator : ∀ g : Graph, g.Closed → node.id < g.size → Turns (do
      if Text.contains r.simple "Decorator" then
        markDecorator node.id
      markHolder current node.id) g () (Effect.markHolder current node.id
        (g.labelIf (Text.contains r.simple "Decorator") node.id .decorator)) := by
    intro g hg hnode
    cases Text.contains r.simple "Decorator" with
    | false => exact hholder g hg hnode
    | true =>
        exact (turns_markDecorator hnode).bind
          (hholder _ (hg.update _ _) (by simpa [Graph.labelIf] using hnode))
  refine (Turns.lift (yields_effect_isStrategy hg r hnode)).bind ?_
  unfold Effect.markField
  cases Effect.isStrategy r node.id g with
  | false => exact hdecorator g hg hnode
  | true =>
      exact (Turns.lift (yields_addLabel hnode _)).bind (Turns.count.bind
        (hdecorator _ (hg.update _ _) (by simpa [Graph.labelIf] using hnode)))

theorem turns_rolesOfField (hg : g.Closed) (c : Context) (d : FieldDecl) :
    Turns (rolesOfField c d) g () (Effect.rolesOfField c d g) := by
  unfold rolesOfField Effect.rolesOfField
  cases d.fieldType with
  | none => exact .pure ()
  | some r =>
      cases c.current? with
      | none => exact .pure ()
      | some current =>
          simp only
          by_cases henum : r.isEnum = true
          · rw [if_pos henum, if_pos henum]
            exact .pure ()
          · rw [if_neg henum, if_neg henum]
            refine (Turns.lift (Target.yields_target r c.imports)).bind ?_
            cases g.target? r c.imports with
            | none => exact .pure ()
            | some name =>
                refine (Turns.lift (yields_findByName name)).bind ?_
                simp only [Option.bind_some, Graph.named]
                cases hnode : g.firstWhere fun e => e.name == name with
                | none => exact .pure ()
                | some node =>
                    simp only
                    by_cases hscope : node.isOutOfScope = true
                    · rw [if_pos hscope, if_pos hscope]
                      exact .pure ()
                    · rw [if_neg hscope, if_neg hscope]
                      exact turns_markField hg current r (lt_of_findByName hnode)

theorem turns_rolesOfCall (hg : g.Closed) (c : Context) (i : Invocation) :
    Turns (rolesOfCall c i) g () (Effect.rolesOfCall c i g) := by
  have hgrown : g.Grown (g.ask i.declaring.erasure i.declaring.nodeKind [.outOfScope] []) :=
    grown_ask i.declaring.isType_nodeKind (by simp) (by simp)
  have hlt := Graph.lt_size_of_has (has_idFor g i.declaring.erasure i.declaring.nodeKind
    [.outOfScope])
  refine turns_ask.bind ((Turns.lift (yields_variantCount (hgrown.closed hg) hlt)).bind ?_)
  unfold Effect.rolesOfCall
  by_cases hzero : (g.ask i.declaring.erasure i.declaring.nodeKind [.outOfScope] []).variantCount
      (g.idFor i.declaring.erasure i.declaring.nodeKind) = 0
  · simpa [Graph.labelIf, hzero] using Turns.pure ()
  · cases hcall : isTemplateCall c i with
    | false => simpa [Graph.labelIf, hzero, hcall] using Turns.pure ()
    | true =>
        simpa [Graph.labelIf, hzero, hcall] using
          (Turns.lift (yields_addLabel hlt .template)).bind .count

theorem acting_roles : roles.Acting Effect.roles where
  enter _ _ _ _ := .pure _
  exit _ _ _ := .pure _
  method _ _ _ _ := .pure _
  field c d _ hg := turns_rolesOfField hg c d
  invocation c i _ hg := turns_rolesOfCall hg c i
  returning _ _ _ _ := .pure _

/-! ### Factories -/

theorem turns_factoryByName (d : TypeDecl) :
    Turns (factoryByName d) g () (Effect.factoryByName d g) := by
  unfold factoryByName Effect.factoryByName
  split
  · have hlt := Graph.lt_size_of_has (has_idFor g d.qualified d.nodeKind [])
    exact turns_ask.bind ((Turns.lift (yields_addLabel hlt _)).bind .count)
  · exact .pure ()

/-- The maker of a product is a factory. -/
theorem turns_isProduct (hg : g.Closed) {maker : NodeId} (hmaker : maker < g.size)
    {base product : Option Node} (hbase : ∀ n, base = some n → n.id < g.size) :
    Turns (σ := FactoryCounts) (match base, product with
      | some base, some product => do
        if ← relatedTo base.id product.id then
          if (← variantCount base.id) ≥ 2 then
            addLabel maker .factory
            modify fun n => { n with byReturn := n.byReturn + 1 }
      | _, _ => pure ()) g () (g.labelIf (Effect.isProduct base product g) maker .factory) := by
  cases base with
  | none => exact .pure ()
  | some base =>
      cases product with
      | none => exact .pure ()
      | some product =>
          have hlt := hbase base rfl
          have hrelated : Yields (relatedTo base.id product.id) g
              (g.isRelated base.id product.id) g := yields_relatedTo hlt product.id
          refine (Turns.lift hrelated).bind ?_
          simp only [Effect.isProduct]
          cases g.isRelated base.id product.id with
          | false => exact .pure ()
          | true =>
              refine (Turns.lift (yields_variantCount hg hlt)).bind ?_
              by_cases htwo : g.variantCount base.id ≥ 2
              · simpa [Graph.labelIf, htwo] using
                  (Turns.lift (yields_addLabel hmaker .factory)).bind .count
              · simpa [Graph.labelIf, htwo] using Turns.pure ()

theorem turns_factoryByReturn (hg : g.Closed) (r : ReturnSite) :
    Turns (factoryByReturn r) g () (Effect.factoryByReturn r g) := by
  unfold factoryByReturn Effect.factoryByReturn
  cases ReturnSite.product? r with
  | none => exact .pure ()
  | some triple =>
      obtain ⟨declaring, result, returned⟩ := triple
      have hgrown : g.Grown (g.ask declaring.erasure declaring.nodeKind [.outOfScope] []) :=
        grown_ask declaring.isType_nodeKind (by simp) (by simp)
      have hmaker := Graph.lt_size_of_has (has_idFor g declaring.erasure declaring.nodeKind
        [.outOfScope])
      refine (Turns.lift (yields_findByName result.erasure)).bind (turns_ask.bind
        ((Turns.lift (yields_findByName returned.erasure)).bind ?_))
      exact turns_isProduct (hgrown.closed hg) hmaker
        fun n hn => hgrown.lt (lt_of_findByName hn)

theorem acting_factories : factories.Acting fun _ => Effect.factories where
  enter _ d _ _ := (turns_factoryByName d).bind (.pure _)
  exit _ _ _ := .pure _
  method _ _ _ _ := .pure _
  field _ _ _ _ := .pure _
  invocation _ _ _ _ := .pure _
  returning _ r _ hg := turns_factoryByReturn hg r

/-! ### Compositions -/

/-- What holds of the counters and the graph stays true past every question for a node, and past
every counted composition of nodes that no edge relates. -/
structure CompositionCounts.Kept (I : CompositionCounts → Graph → Prop) : Prop where
  ask : ∀ {n g}, ∀ name kind, I n g → I n (g.ask name kind [] [])
  link : ∀ {n g}, ∀ s t, g.isRelated s t = false → I n g →
    I { n with links := n.links + 1 } (g.addEdge s .composing t)

theorem CompositionCounts.Kept.true : Kept fun _ _ => True := ⟨fun _ _ => id, fun _ _ _ => id⟩

variable {J : CompositionCounts → Graph → Prop}

theorem turnsIn_compose (hJ : CompositionCounts.Kept J) {parent used : Node}
    (hparent : parent.id < g.size) (hused : used.id < g.size) :
    TurnsIn J (compose parent used) g () (Effect.compose parent.id used.id g) := by
  have hrelates : Yields (relatedTo parent.id used.id) g (g.isRelated parent.id used.id) g :=
    yields_relatedTo hparent used.id
  refine (TurnsIn.read hrelates).bind ?_
  unfold Effect.compose
  cases hrelated : g.isRelated parent.id used.id with
  | true => exact .pure ()
  | false =>
      have hkept : ∀ n, J n g → J { n with links := n.links + 1 }
          (g.addEdge parent.id .composing used.id) := fun _ => hJ.link _ _ hrelated
      exact .counted (yields_link hparent hused .composing) hkept

theorem yields_effect_usedType (r : TypeRef) (imports : List Import) :
    Yields (usedType r imports) g (Effect.usedType r imports g) g := by
  refine (Target.yields_target r imports).bind ?_
  unfold Effect.usedType
  cases g.target? r imports with
  | none => exact Yields.pure _ _
  | some name => exact (yields_findByName name).bind_pure _

/-- The used type, if any, is a node. -/
theorem lt_size_usedType {r : TypeRef} {imports : List Import} {used : Node}
    (h : Effect.usedType r imports g = some used) : used.id < g.size := by
  obtain ⟨hbind, -⟩ := Option.filter_eq_some_iff.mp h
  obtain ⟨name, -, hnamed⟩ := Option.bind_eq_some_iff.mp hbind
  exact lt_of_findByName hnamed

theorem turnsIn_composeField (hJ : CompositionCounts.Kept J) (c : Context) (d : FieldDecl) :
    TurnsIn J (composeField c d) g () (Effect.composeField c d g) := by
  unfold composeField Effect.composeField
  cases d.fieldType with
  | none => exact .pure ()
  | some r =>
      cases c.current? with
      | none => exact .pure ()
      | some current =>
          simp only
          by_cases henum : r.isEnum = true
          · rw [if_pos henum, if_pos henum]
            exact .pure ()
          · rw [if_neg henum, if_neg henum]
            refine (TurnsIn.read (yields_effect_usedType r c.imports)).bind ?_
            cases hused : Effect.usedType r c.imports g with
            | none => exact .pure ()
            | some used =>
                have hgrown : g.Grown (g.ask current.qualified current.toRef.nodeKind [] []) :=
                  grown_ask current.toRef.isType_nodeKind (by simp) (by simp)
                have hlt := Graph.lt_size_of_has (has_idFor g current.qualified
                  current.toRef.nodeKind [])
                have hused := hgrown.lt (lt_size_usedType hused)
                exact (turnsIn_ask fun _ => hJ.ask _ _).bind (turnsIn_compose hJ hlt hused)

theorem size_compose (parent used : NodeId) : (Effect.compose parent used g).size = g.size := by
  unfold Effect.compose
  split <;> rfl

theorem turnsIn_composeParameter (hJ : CompositionCounts.Kept J) (c : Context) {parent : Node}
    (hparent : parent.id < g.size) (r : TypeRef) :
    TurnsIn J (composeParameter c parent r) g () (Effect.composeParameter c parent.id g r) ∧
      (Effect.composeParameter c parent.id g r).size = g.size := by
  unfold Effect.composeParameter
  cases hused : Effect.usedType r c.imports g with
  | none =>
      refine ⟨(TurnsIn.read (yields_effect_usedType r c.imports)).bind ?_, rfl⟩
      rw [hused]
      exact .pure ()
  | some used =>
      refine ⟨(TurnsIn.read (yields_effect_usedType r c.imports)).bind ?_, size_compose _ _⟩
      rw [hused]
      exact turnsIn_compose hJ hparent (lt_size_usedType hused)

theorem turnsIn_composeResult (hJ : CompositionCounts.Kept J) {parent : Node}
    (hparent : parent.id < g.size) (r : TypeRef) :
    TurnsIn J (composeResult parent r) g () (Effect.composeResult parent.id parent.name g r) := by
  refine (TurnsIn.read (yields_findByName r.erasure)).bind ?_
  unfold Effect.composeResult Graph.named
  cases hreturned : g.firstWhere fun e => e.name == r.erasure with
  | none => exact .pure ()
  | some returned =>
      simp only
      split
      · exact .pure ()
      · exact turnsIn_compose hJ hparent (lt_of_findByName hreturned)

/-- A node that was asked for has the name asked for. -/
theorem name_idFor (g : Graph) (name : String) (kind : EntityKind) (onCreate : List Label) :
    ((g.ask name kind onCreate []).entity (g.idFor name kind)).name = name := by
  cases hfirst : g.firstWhere (isNamed name kind) with
  | some n =>
      simp only [Graph.ask, Graph.idFor, hfirst, Graph.label_nil]
      exact eq_of_beq ((Bool.and_eq_true _ _).mp (Graph.firstWhere_eq_some hfirst).2.2).1
  | none =>
      simp [Graph.ask, Graph.idFor, hfirst, Graph.entity_addNode]

/-- A type is linked to what a method of it takes and returns. -/
theorem turnsIn_composeSignature (hJ : CompositionCounts.Kept J) (c : Context) (d : MethodDecl)
    (parent : Node) (hparent : parent.id < g.size) :
    TurnsIn J (do
      (d.parameters.filterMap id).forM (composeParameter c parent)
      unless d.isConstructor do
        d.returnType.toList.forM (composeResult parent)) g ()
      (Effect.composeSignature c d parent.id parent.name g) := by
  have hparameter : ∀ r ∈ d.parameters.filterMap id, ∀ g : Graph, parent.id < g.size →
      TurnsIn J (composeParameter c parent r) g () (Effect.composeParameter c parent.id g r) ∧
        parent.id < (Effect.composeParameter c parent.id g r).size := by
    intro r _ g hg
    obtain ⟨hturns, hsize⟩ := turnsIn_composeParameter hJ c hg r
    exact ⟨hturns, hsize ▸ hg⟩
  obtain ⟨hparams, hsize⟩ := TurnsIn.forM hparameter hparent
  refine hparams.bind ?_
  unfold Effect.composeSignature
  cases d.isConstructor with
  | true => exact .pure ()
  | false =>
      cases d.returnType with
      | none => exact .pure ()
      | some r => exact (turnsIn_composeResult hJ hsize r).bind (.pure ())

theorem turnsIn_composeMethod (hJ : CompositionCounts.Kept J) (c : Context) (d : MethodDecl) :
    TurnsIn J (composeMethod c d) g () (Effect.composeMethod c d g) := by
  unfold composeMethod Effect.composeMethod
  cases d.declaring with
  | none => exact .pure ()
  | some declaring =>
      have hlt := Graph.lt_size_of_has (has_idFor g declaring.qualified declaring.nodeKind [])
      have hname : ((g.ask declaring.qualified declaring.nodeKind [] []).nodeAt
          (g.idFor declaring.qualified declaring.nodeKind)).name = declaring.qualified :=
        name_idFor g declaring.qualified declaring.nodeKind []
      have hsignature := turnsIn_composeSignature hJ c d
        ((g.ask declaring.qualified declaring.nodeKind [] []).nodeAt
          (g.idFor declaring.qualified declaring.nodeKind)) hlt
      rw [hname] at hsignature
      exact (turnsIn_ask fun _ => hJ.ask _ _).bind hsignature

theorem tallying_compositions (hJ : CompositionCounts.Kept J) :
    compositions.Tallying Effect.compositions J where
  enter _ _ _ _ := .pure _
  exit _ _ _ := .pure _
  method c d _ _ := turnsIn_composeMethod hJ c d
  field c d _ _ := turnsIn_composeField hJ c d
  invocation _ _ _ _ := .pure _
  returning _ _ _ _ := .pure _

theorem acting_compositions : compositions.Acting Effect.compositions :=
  .of_tallying (tallying_compositions .true)

end Sweep

/-! ### The graph before detection -/

namespace Analysis

variable (units : List SourceUnit)

/-- The graph after the first sweep. -/
def declared : Graph := Sweep.apply Effect.declarations (Sweep.deliveries units) .empty

/-- The graph after the second sweep. -/
def linked : Graph := Sweep.apply Effect.supertypes (Sweep.deliveries units) (declared units)

/-- The graph after the third sweep. -/
def marked : Graph := Sweep.apply Effect.roles (Sweep.deliveries units) (linked units)

/-- The graph after the fourth sweep. -/
def produced : Graph :=
  Sweep.apply (fun _ => Effect.factories) (Sweep.deliveries units) (marked units)

/-- The graph after the fifth sweep. -/
def built : Graph := Sweep.apply Effect.compositions (Sweep.deliveries units) (produced units)

/-- A sweep whose handlers have effects, with its counters. -/
theorem yields_sweep_apply {σ : Type} [Inhabited σ] {s : Sweep (StateT σ Session)}
    {E : Sweep.Context → Event → Graph → Graph} (h : s.Acting E) (hs : s.Building) (start : σ)
    {g : Graph} (hg : g.Closed) :
    ∃ report, Yields (sweep s start units) g report
      (Sweep.apply E (Sweep.deliveries units) g) := by
  obtain ⟨report, hturns⟩ := h.turns_run hs units hg
  obtain ⟨counts, hyields⟩ := hturns start
  exact ⟨(report, counts), hyields⟩

theorem grown_declared : Graph.empty.Grown (declared units) :=
  Sweep.acting_declarations.grown_apply Sweep.building_declarations
    (fun _ _ => Sweep.isHandled_of_mem_deliveries) Graph.closed_empty

theorem sound_declared : (declared units).Sound := (grown_declared units).sound Graph.sound_empty

theorem grown_linked : (declared units).Grown (linked units) :=
  Sweep.acting_supertypes.grown_apply Sweep.building_supertypes
    (fun _ _ => Sweep.isHandled_of_mem_deliveries) (sound_declared units).closed

theorem sound_linked : (linked units).Sound := (grown_linked units).sound (sound_declared units)

theorem grown_marked : (linked units).Grown (marked units) :=
  Sweep.acting_roles.grown_apply Sweep.building_roles
    (fun _ _ => Sweep.isHandled_of_mem_deliveries) (sound_linked units).closed

theorem sound_marked : (marked units).Sound := (grown_marked units).sound (sound_linked units)

theorem grown_produced : (marked units).Grown (produced units) :=
  Sweep.acting_factories.grown_apply Sweep.building_factories
    (fun _ _ => Sweep.isHandled_of_mem_deliveries) (sound_marked units).closed

theorem sound_produced : (produced units).Sound :=
  (grown_produced units).sound (sound_marked units)

theorem grown_built : (produced units).Grown (built units) :=
  Sweep.acting_compositions.grown_apply Sweep.building_compositions
    (fun _ _ => Sweep.isHandled_of_mem_deliveries) (sound_produced units).closed

theorem sound_built : (built units).Sound := (grown_built units).sound (sound_produced units)

theorem grown_marked_built : (marked units).Grown (built units) :=
  (grown_produced units).trans (grown_built units)

theorem grown_linked_built : (linked units).Grown (built units) :=
  (grown_marked units).trans (grown_marked_built units)

theorem grown_declared_built : (declared units).Grown (built units) :=
  (grown_linked units).trans (grown_linked_built units)

/-- The graph that is built has grown from nothing. -/
theorem grown_empty_built : Graph.empty.Grown (built units) :=
  (grown_declared units).trans (grown_declared_built units)

/-- **An analysis leaves what detection makes of the graph that is built.** -/
theorem yields_run_built (thresholds : HotspotThresholds) :
    ∃ summary, Yields (run thresholds units) .empty summary
      (detected thresholds (built units)) :=
  yields_run_of_sweeps thresholds
    (yields_sweep_apply units Sweep.acting_declarations Sweep.building_declarations {}
      Graph.closed_empty)
    (yields_sweep_apply units Sweep.acting_supertypes Sweep.building_supertypes {}
      (sound_declared units).closed)
    (yields_sweep_apply units Sweep.acting_roles Sweep.building_roles {}
      (sound_linked units).closed)
    (yields_sweep_apply units Sweep.acting_factories Sweep.building_factories {}
      (sound_marked units).closed)
    (yields_sweep_apply units Sweep.acting_compositions Sweep.building_compositions {}
      (sound_produced units).closed)
    (sound_built units).closed

end Analysis

end Variability
