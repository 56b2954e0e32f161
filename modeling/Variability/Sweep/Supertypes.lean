import Variability.Sweep.Declarations
import Variability.Sweep.Target

/-!
# Second sweep: supertypes

Every visited type is linked from the nodes of its superclass and interfaces. A supertype without
a node gets one that is marked as out of scope. The sweep counts its links, and those among them
that were corrected: the reference points to another name than its own, or nowhere.
-/

namespace Variability.Sweep

/-- What the second sweep found. -/
structure SupertypeCounts where
  links : Nat := 0
  corrected : Nat := 0
  deriving DecidableEq, Repr, Inhabited

/-- The kind of node that stands for a supertype in a relation. -/
def supertypeKind : Relation → EntityKind
  | .implementing => .interfaceType
  | _ => .classType

/-- Links the node of a type from the node of one of its supertypes. -/
def linkSupertype (c : Context) (subtype : NodeId) (relation : Relation) (r : TypeRef) :
    StateT SupertypeCounts Session Unit := do
  let found ← Target.resolve r c.imports
  unless found = some r.erasure do
    modify fun n => { n with corrected := n.corrected + 1 }
  let parent ← Session.getOrCreateNode (found.getD r.erasure) (supertypeKind relation)
    [.outOfScope] []
  Session.link parent.id subtype relation
  modify fun n => { n with links := n.links + 1 }

/-- Links the node of a declared type from the nodes of its supertypes, superclass first. -/
def linkSupertypes (c : Context) (d : TypeDecl) : StateT SupertypeCounts Session Unit := do
  let label : Label := if d.isInterface then .interfaceType else .classType
  match ← Session.findByLabelsAndName [label] d.qualified with
  | none => pure ()
  | some this =>
    d.superclass.toList.forM (linkSupertype c this.id .extending)
    d.interfaces.forM (linkSupertype c this.id .implementing)

/-- The sweep that links types to their supertypes. -/
def supertypes : Sweep (StateT SupertypeCounts Session) where
  name := "inheritance"
  enter := fun c d => do linkSupertypes c d; pure .descend

end Variability.Sweep
