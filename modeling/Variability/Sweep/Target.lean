import Variability.Source.Event
import Variability.Store.Session

/-!
# The node a reference points to

What a reference was resolved to is not always the name of the node that stands for its type,
because references to types outside the sources are incomplete. Three ways to find the node's name
are tried in order, and the first that finds one wins: the name itself, a single-type import that
ends in it, and a type of that name in an imported package.
-/

namespace Variability.Target

/-- The erased name of the reference, if a node has it. -/
def exact (r : TypeRef) : Session (Option String) := do
  return (← Session.findByName r.erasure).map fun _ => r.erasure

/-- The first single-type import that ends in the simple name of the reference, whether or not
any node has that name. -/
def singleImport (r : TypeRef) (imports : List Import) : Option String :=
  (imports.find? fun i => !i.onDemand && Text.endsWith i.path ("." ++ Name.erasure r.simple)).map
    (·.path)

/-- The first type with the given simple name in one of the packages, in package order. -/
def firstInPackages (simple : String) : List String → Session (Option String)
  | [] => pure none
  | package :: packages => do
    match ← Session.findInPackage simple package with
    | some n => pure (some n.name)
    | none => firstInPackages simple packages

/-- The first type with the simple name of the reference in an on-demand imported package. -/
def onDemandImport (r : TypeRef) (imports : List Import) : Session (Option String) :=
  firstInPackages (Name.erasure r.simple) ((imports.filter (·.onDemand)).map (·.path))

/-- The name of the node that a reference points to, if it points into the graph. -/
def resolve (r : TypeRef) (imports : List Import) : Session (Option String) := do
  match ← exact r with
  | some name => pure (some name)
  | none =>
    match singleImport r imports with
    | some name => pure (some name)
    | none => onDemandImport r imports

end Variability.Target
