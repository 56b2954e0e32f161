import Variability.Source.Event

/-!
# Sweeps

A sweep goes once through the events of every source unit and hands each event to a handler.
The handlers run in any monad, so a sweep may count, write to a graph, or fail. What is shared by
all sweeps is decided here: which types are left out with everything inside them, which imports
are in force, and which types are open at each event.
-/

namespace Variability

/-- Why a type is left out of every sweep. -/
inductive Exclusion where
  | testPackage
  | privateNested
  | enumeration
  | anonymous
  deriving DecidableEq, Repr

/-- The package segments that mark test code. -/
def testSegments : List String := ["test", "tests"]

/-- Why a declaration is left out, if it is; the first reason counts. -/
def TypeDecl.exclusion? (d : TypeDecl) : Option Exclusion :=
  if d.package.any testSegments.contains then some .testPackage
  else if d.isNested && d.isPrivate then some .privateNested
  else if d.isEnum then some .enumeration
  else if d.isAnonymous then some .anonymous
  else none

namespace Sweep

/-- Whether the contents of a type are handed to the sweep. -/
inductive Visit where
  | descend
  | skip
  deriving DecidableEq, Repr, Inhabited

/-- What a handler knows about the place of its event. -/
structure Context where
  /-- The non-static imports met so far, in order. -/
  imports : List Import := []
  /-- The open types, innermost first. -/
  types : List TypeDecl := []
  deriving DecidableEq, Repr, Inhabited

/-- The innermost open type. -/
def Context.current? (c : Context) : Option TypeDecl := c.types.head?

/-- What a sweep did. -/
structure Report where
  pass : String
  units : Nat := 0
  visited : Nat := 0
  skipped : Nat := 0
  deriving DecidableEq, Repr, Inhabited

/-- How far a sweep has come in a unit. -/
structure Progress where
  context : Context := {}
  /-- How many types are open from the outermost skipped one inwards. -/
  depth : Nat := 0
  visited : Nat := 0
  skipped : Nat := 0
  deriving DecidableEq, Repr, Inhabited

end Sweep

/-- The handlers of a sweep. By default a handler does nothing, and every type is descended
into. -/
structure Sweep (m : Type → Type) [Monad m] where
  name : String
  enter : Sweep.Context → TypeDecl → m Sweep.Visit := fun _ _ => pure .descend
  exit : Sweep.Context → TypeDecl → m Unit := fun _ _ => pure ()
  method : Sweep.Context → MethodDecl → m Unit := fun _ _ => pure ()
  field : Sweep.Context → FieldDecl → m Unit := fun _ _ => pure ()
  invocation : Sweep.Context → Invocation → m Unit := fun _ _ => pure ()
  returning : Sweep.Context → ReturnSite → m Unit := fun _ _ => pure ()

namespace Sweep

variable {m : Type → Type} [Monad m]

/-- Whether to go into a type: never into an excluded one, otherwise as the handler says. -/
def decideVisit (s : Sweep m) (c : Context) (d : TypeDecl) : m Visit :=
  match d.exclusion? with
  | some _ => pure .skip
  | none => s.enter c d

/-- Goes past the start of a type that is not inside a skipped one. -/
def startType (s : Sweep m) (p : Progress) (d : TypeDecl) : m Progress := do
  match ← s.decideVisit p.context d with
  | .skip => pure { p with skipped := p.skipped + 1, depth := 1 }
  | .descend =>
    pure { p with
      visited := p.visited + 1
      context := { p.context with types := d :: p.context.types } }

/-- Goes past the end of a type that is not inside a skipped one. -/
def endType (s : Sweep m) (p : Progress) : m Progress :=
  match p.context.types with
  | [] => pure p
  | d :: types => do
    let context := { p.context with types }
    s.exit context d
    pure { p with context }

/-- Goes past one event. -/
def step (s : Sweep m) (p : Progress) : Event → m Progress
  | .importing i =>
    if i.isStatic then pure p
    else pure { p with context := { p.context with imports := p.context.imports ++ [i] } }
  | .entered d => if p.depth > 0 then pure { p with depth := p.depth + 1 } else s.startType p d
  | .exited => if p.depth > 0 then pure { p with depth := p.depth - 1 } else s.endType p
  | .method d => if p.depth > 0 then pure p else do s.method p.context d; pure p
  | .field d => if p.depth > 0 then pure p else do s.field p.context d; pure p
  | .invocation none => pure p
  | .invocation (some i) => if p.depth > 0 then pure p else do s.invocation p.context i; pure p
  | .returning r => if p.depth > 0 then pure p else do s.returning p.context r; pure p

/-- Goes through one unit, with nothing open and nothing imported at its start. -/
def runUnit (s : Sweep m) (r : Report) (u : SourceUnit) : m Report := do
  let p ← u.events.foldlM s.step {}
  pure { r with
    units := r.units + 1
    visited := r.visited + p.visited
    skipped := r.skipped + p.skipped }

/-- Goes through all units, in order. -/
def run (s : Sweep m) (units : List SourceUnit) : m Report :=
  units.foldlM s.runUnit { pass := s.name }

end Sweep

end Variability
