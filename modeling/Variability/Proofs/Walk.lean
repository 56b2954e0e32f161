import Variability.Sweep.Basic

/-!
# Sweeps as walks

A sweep reads a flat list of events. It keeps a list of the open types, and inside a skipped type it
counts how deep it is. What this does on well-nested events is said here by recursion instead: a
unit is a forest of types (`Forest`), and a walk goes through the forest, into a type or past it
(`Sweep.walk`). In a walk the enclosing types and the imports in force are arguments, so what a
handler is told about its place can be read off the definition.

A sweep over the events of a forest is the walk through it, in every lawful monad. A handler may
thus count, change a graph, answer as it likes, or fail: the effects, the report and the failure are
those of the walk.

## Main results

* `Sweep.foldlM_step_skipped`: inside a skipped type, nothing happens up to its end.
* `Sweep.foldlM_step_events`: outside, the events of a forest are walked.
* `Sweep.run_outlines`: a sweep over outlined units is a walk through them.
-/

namespace Variability

/-- What stands in a type besides types. -/
inductive Content where
  | method (d : MethodDecl)
  | field (d : FieldDecl)
  | invocation (i : Option Invocation)
  | returning (r : ReturnSite)

/-- The event of what stands in a type. -/
def Content.event : Content → Event
  | method d => .method d
  | field d => .field d
  | invocation i => .invocation i
  | returning r => .returning r

/-- Types one after the other, each with what is inside it, and what stands between them. -/
inductive Forest where
  | nil
  | content (e : Content) (rest : Forest)
  | type (d : TypeDecl) (inside rest : Forest)

/-- The events of a forest: those inside a type stand between its start and its end. -/
def Forest.events : Forest → List Event
  | nil => []
  | content e rest => e.event :: rest.events
  | type d inside rest => .entered d :: (inside.events ++ .exited :: rest.events)

/-- A source unit as imports and types. -/
structure Outline where
  path : String := ""
  package : Option String := none
  imports : List Import := []
  types : Forest := .nil

namespace Outline

/-- The unit with the events of the outline, imports first. -/
def unit (o : Outline) : SourceUnit where
  path := o.path
  package := o.package
  events := o.imports.map .importing ++ o.types.events

/-- The imports that are in force in the unit. -/
def inForce (o : Outline) : List Import := o.imports.filter fun i => !i.isStatic

end Outline

namespace Sweep

/-- How many types a walk has gone into and past. -/
structure Tally where
  visited : Nat := 0
  skipped : Nat := 0
  deriving DecidableEq, Repr

/-- The counts of one walk after another. -/
def Tally.add (t u : Tally) : Tally where
  visited := t.visited + u.visited
  skipped := t.skipped + u.skipped

variable {m : Type → Type} [Monad m]

/-- Hands over what stands in a type. -/
def handle (s : Sweep m) (c : Context) : Content → m Unit
  | .method d => s.method c d
  | .field d => s.field c d
  | .invocation none => pure ()
  | .invocation (some i) => s.invocation c i
  | .returning r => s.returning c r

/-- Goes past a type, where `within` is the walk through what is inside. A type that is excluded is
skipped, and so is one for which the handler says so. -/
def walkType (s : Sweep m) (c : Context) (d : TypeDecl) (within : m Tally) : m Tally :=
  match d.exclusion? with
  | some _ => pure { skipped := 1 }
  | none => do
    match ← s.enter c d with
    | .skip => pure { skipped := 1 }
    | .descend =>
      let t ← within
      s.exit c d
      pure { t with visited := t.visited + 1 }

/-- Walks through a forest. Inside a type it is the innermost of the enclosing ones, and past its
end it no longer is one of them. -/
def walk (s : Sweep m) (imports : List Import) (enclosing : List TypeDecl) : Forest → m Tally
  | .nil => pure {}
  | .content e rest => do
    s.handle { imports, types := enclosing } e
    s.walk imports enclosing rest
  | .type d inside rest => do
    let within := s.walk imports (d :: enclosing) inside
    let here ← s.walkType { imports, types := enclosing } d within
    let after ← s.walk imports enclosing rest
    pure (here.add after)

/-- Walks through a unit, with its own imports and with no type open at its start. -/
def walkUnit (s : Sweep m) (r : Report) (o : Outline) : m Report := do
  let t ← s.walk o.inForce [] o.types
  pure { r with
    units := r.units + 1
    visited := r.visited + t.visited
    skipped := r.skipped + t.skipped }

/-! ### Events one by one -/

/-- Imports are collected, static ones apart. -/
theorem foldlM_step_imports [LawfulMonad m] (s : Sweep m) (p : Progress) (is : List Import) :
    (is.map Event.importing).foldlM s.step p =
      pure { p with context := { p.context with
        imports := p.context.imports ++ is.filter fun i => !i.isStatic } } := by
  induction is generalizing p with
  | nil => simp
  | cons i is ih =>
      rw [List.map_cons, List.foldlM_cons]
      by_cases hi : i.isStatic
      · simp [step, hi, ih]
      · simp [step, hi, ih]

/-- What stands in a skipped type is not handed over. -/
theorem step_content_skipped (s : Sweep m) {p : Progress} (hp : 0 < p.depth) (e : Content) :
    s.step p e.event = pure p := by
  rcases e with _ | _ | (_ | _) | _
  all_goals simp [Content.event, step, hp]

/-- Outside of skipped types, what stands in a type is handed over. -/
theorem step_content (s : Sweep m) [LawfulMonad m] {p : Progress} (hp : p.depth = 0) (e : Content) :
    s.step p e.event = (do s.handle p.context e; pure p) := by
  rcases e with _ | _ | (_ | _) | _
  all_goals simp [Content.event, step, handle, hp]

/-- **Inside a skipped type nothing happens**: at the end of a forest a sweep is where it was at its
beginning. -/
theorem foldlM_step_skipped [LawfulMonad m] (s : Sweep m) {p : Progress} (hp : 0 < p.depth)
    (f : Forest) : f.events.foldlM s.step p = pure p := by
  induction f generalizing p with
  | nil => rfl
  | content e rest ih =>
      rw [Forest.events, List.foldlM_cons, step_content_skipped s hp, pure_bind, ih hp]
  | type d inside rest ihinside ihrest =>
      have hentered : s.step p (.entered d) = pure { p with depth := p.depth + 1 } := by
        simp [step, hp]
      have hexited : s.step { p with depth := p.depth + 1 } .exited = pure p := by
        simp [step]
      rw [Forest.events, List.foldlM_cons, hentered, pure_bind, List.foldlM_append,
        ihinside (Nat.succ_pos _), pure_bind, List.foldlM_cons, hexited, pure_bind, ihrest hp]

/-- How far a sweep is after a walk. -/
def Progress.add (p : Progress) (t : Tally) : Progress :=
  { p with visited := p.visited + t.visited, skipped := p.skipped + t.skipped }

theorem Progress.add_add (p : Progress) (t u : Tally) : (p.add t).add u = p.add (t.add u) := by
  simp [add, Tally.add, Nat.add_assoc]

/-- A type with what is inside it, where the events inside are walked. -/
theorem foldlM_step_type [LawfulMonad m] (s : Sweep m) {p : Progress} (hp : p.depth = 0)
    (d : TypeDecl) {inside : Forest}
    (hinside : ∀ {p : Progress}, p.depth = 0 →
      inside.events.foldlM s.step p = p.add <$> s.walk p.context.imports p.context.types inside) :
    (Event.entered d :: (inside.events ++ [.exited])).foldlM s.step p =
      p.add <$> s.walkType p.context d
        (s.walk p.context.imports (d :: p.context.types) inside) := by
  have hentered : s.step p (.entered d) = s.startType p d := by simp [step, hp]
  -- a skipped type ends where the depth is back at zero
  have hskip : (inside.events ++ [Event.exited]).foldlM s.step
      { p with skipped := p.skipped + 1, depth := 1 } = pure (p.add { skipped := 1 }) := by
    rw [List.foldlM_append, foldlM_step_skipped s (Nat.succ_pos _), pure_bind]
    simp [step, Progress.add, hp]
  -- a type that is gone into is open up to its end
  have hdescend : (inside.events ++ [Event.exited]).foldlM s.step
      { p with
        visited := p.visited + 1
        context := { p.context with types := d :: p.context.types } } =
      p.add <$> (do
        let t ← s.walk p.context.imports (d :: p.context.types) inside
        s.exit p.context d
        pure { t with visited := t.visited + 1 }) := by
    simp only [List.foldlM_append, hinside, hp, map_bind, bind_map_left]
    congr 1
    funext t
    simp [step, endType, Progress.add, hp, Nat.add_assoc, Nat.add_comm 1]
  rw [List.foldlM_cons, hentered, startType, decideVisit, walkType]
  cases d.exclusion? with
  | some _ => simp only [pure_bind, hskip, map_pure]
  | none =>
      simp only [bind_assoc, map_bind]
      congr 1
      funext visit
      cases visit with
      | skip => simp only [pure_bind, hskip, map_pure]
      | descend => simp only [pure_bind, hdescend]

/-- **Outside of skipped types, the events of a forest are walked.** -/
theorem foldlM_step_events [LawfulMonad m] (s : Sweep m) {p : Progress} (hp : p.depth = 0)
    (f : Forest) :
    f.events.foldlM s.step p = p.add <$> s.walk p.context.imports p.context.types f := by
  induction f generalizing p with
  | nil => simp [Forest.events, walk, Progress.add]
  | content e rest ih =>
      rw [Forest.events, List.foldlM_cons, step_content s hp, walk]
      simp [ih hp]
  | type d inside rest ihinside ihrest =>
      have hsplit : (Forest.type d inside rest).events =
          (.entered d :: (inside.events ++ [.exited])) ++ rest.events := by
        simp [Forest.events]
      rw [hsplit, List.foldlM_append, foldlM_step_type s hp d ihinside, walk, map_bind,
        bind_map_left]
      congr 1
      funext here
      have hrest : rest.events.foldlM s.step (p.add here) =
          (p.add here).add <$> s.walk p.context.imports p.context.types rest := ihrest hp
      simp only [hrest, map_eq_pure_bind, bind_assoc, pure_bind, Progress.add_add]

/-- A unit is walked. -/
theorem runUnit_unit [LawfulMonad m] (s : Sweep m) (r : Report) (o : Outline) :
    s.runUnit r o.unit = s.walkUnit r o := by
  rw [runUnit, Outline.unit, List.foldlM_append, foldlM_step_imports, pure_bind,
    foldlM_step_events s rfl, walkUnit]
  simp [Progress.add, Outline.inForce]

/-- **A sweep is a walk**: over units that are outlines, in any lawful monad, it does what the walk
through the outlines does, and reports the same. -/
theorem run_outlines [LawfulMonad m] (s : Sweep m) (outlines : List Outline) :
    s.run (outlines.map Outline.unit) = outlines.foldlM s.walkUnit { pass := s.name } := by
  rw [run, List.foldlM_map]
  simp only [runUnit_unit]

/-- Writes down the innermost type at the start and the end of types and at methods, does not go
into types named `Closed`, and fails at a method named `halt`. -/
def recorder : Sweep (ExceptT String (StateM (List (String × Option String)))) where
  name := "recorder"
  enter c d := do
    modify (("enter " ++ d.simple, c.current?.map (·.simple)) :: ·)
    pure (if d.simple == "Closed" then .skip else .descend)
  exit c d := modify (("exit " ++ d.simple, c.current?.map (·.simple)) :: ·)
  method c d :=
    if d.name == "halt" then throw "halted"
    else modify ((d.name, c.current?.map (·.simple)) :: ·)

/-- Two types inside an outer one: an enumeration with a type of its own, and a type that is not
gone into. A type that has a method follows. -/
def nested : Outline where
  imports := [{ path := "lib.A" }, { path := "lib.B.m", isStatic := true }]
  types :=
    .type { qualified := "Outer", simple := "Outer" }
      (.type { qualified := "Outer.E", simple := "E", kind := .enumKind }
        (.type { qualified := "Outer.E.In", simple := "In" }
          (.content (.method { name := "x" }) .nil) .nil)
        (.content (.method { name := "f" })
          (.type { qualified := "Outer.Closed", simple := "Closed" }
            (.content (.method { name := "halt" }) .nil)
            (.content (.method { name := "g" }) .nil))))
      (.type { qualified := "Next", simple := "Next" } (.content (.method { name := "h" }) .nil)
        .nil)

theorem run_outlines_nested :
    (recorder.run ([nested].map Outline.unit)).run.run [] =
      (.ok { pass := "recorder", units := 1, visited := 2, skipped := 2 },
        [("exit Next", none), ("h", some "Next"), ("enter Next", none),
          ("exit Outer", none), ("g", some "Outer"), ("enter Closed", some "Outer"),
          ("f", some "Outer"), ("enter Outer", none)]) := by
  rw [run_outlines]
  rfl

end Sweep

end Variability
