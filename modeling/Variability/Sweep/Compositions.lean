import Variability.Sweep.Declarations
import Variability.Sweep.Target

/-!
# Fifth sweep: compositions

A type is linked to the types it holds in fields, takes as parameters or returns, as far as they
are in scope. A type that is already related to another is not linked to it again.
-/

namespace Variability.Sweep

/-- What the fifth sweep found. -/
structure CompositionCounts where
  links : Nat := 0
  deriving DecidableEq, Repr, Inhabited

/-- Links a type to one that it uses, unless some edge leads there already. -/
def compose (parent used : Node) : StateT CompositionCounts Session Unit := do
  unless ← Session.relatedTo parent.id used.id do
    Session.link parent.id used.id .composing
    modify fun n => { n with links := n.links + 1 }

/-- The node in scope that a reference points to. -/
def usedType (r : TypeRef) (imports : List Import) : Session (Option Node) := do
  match ← Target.resolve r imports with
  | none => pure none
  | some name => return (← Session.findByName name).filter (!·.isOutOfScope)

/-- Links the current type to the type of a field. -/
def composeField (c : Context) (d : FieldDecl) : StateT CompositionCounts Session Unit :=
  match d.fieldType, c.current? with
  | some r, some current =>
    if r.isEnum then pure ()
    else do
      match ← usedType r c.imports with
      | none => pure ()
      | some used =>
        let parent ← Session.getOrCreateNode current.qualified current.toRef.nodeKind [] []
        compose parent used
  | _, _ => pure ()

/-- Links a type to the type of a parameter. -/
def composeParameter (c : Context) (parent : Node) (r : TypeRef) :
    StateT CompositionCounts Session Unit := do
  match ← usedType r c.imports with
  | none => pure ()
  | some used => compose parent used

/-- Links a type to a type that it returns. The returned type is looked up by its name alone, and
no type is linked to itself this way. -/
def composeResult (parent : Node) (r : TypeRef) : StateT CompositionCounts Session Unit := do
  match ← Session.findByName r.erasure with
  | none => pure ()
  | some returned =>
    if returned.isOutOfScope || returned.name == parent.name then pure ()
    else compose parent returned

/-- Links the declaring type of a method to the method's parameter types and return type. -/
def composeMethod (c : Context) (d : MethodDecl) : StateT CompositionCounts Session Unit :=
  match d.declaring with
  | none => pure ()
  | some declaring => do
    let parent ← Session.getOrCreateNode declaring.qualified declaring.nodeKind [] []
    (d.parameters.filterMap id).forM (composeParameter c parent)
    unless d.isConstructor do
      d.returnType.toList.forM (composeResult parent)

/-- The sweep that links types to the types they are composed of. -/
def compositions : Sweep (StateT CompositionCounts Session) where
  name := "composition"
  field := composeField
  method := composeMethod

end Variability.Sweep
