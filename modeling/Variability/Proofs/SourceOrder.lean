import Variability.Proofs.Naming

/-!
# Files in source order

A file is flattened to one list of events, although its types contain methods, whose bodies contain
anonymous classes, which contain members again. This module reads the list back. A scan with a stack
finds the types that are open at each event, and has no answer for a list that is not well nested
(`Event.placed?`). Beside it stand the pieces of the file itself in source order, each with the types
around it (`Java.FileSyntax.pieces`).

The two lists agree, piece for piece and event for event. Nothing is lost, repeated or moved, at any
depth. The open types at an event are the types around its piece. The innermost of them owns methods
and return statements, and all of them together are the scope in which names are resolved.

## Main results

* `Project.Place.spells_typeEvents`: the events of a type, before any others, are its pieces.
* `Project.events_inSourceOrder`: the events of a file are its imports and then its pieces.
-/

namespace Variability

/-- The events of a list, ends of types apart, each with the types that are open at it, the innermost
first. A list is not well nested, and has no answer, if a type ends where none is open, if one is
still open when the list ends, or if an import stands among the types. -/
def Event.placed? : List TypeDecl → List Event → Option (List (List TypeDecl × Event))
  | around, [] => if around.isEmpty then some [] else none
  | around, .exited :: es =>
    match around with
    | [] => none
    | _ :: outer => placed? outer es
  | _, .importing _ :: _ => none
  | around, .entered d :: es => (placed? (d :: around) es).map ((around, .entered d) :: ·)
  | around, e :: es => (placed? around es).map ((around, e) :: ·)

/-- Where an event names the type that it stands in, this is the innermost open one. -/
def Event.Owned (around : List TypeDecl) : Event → Prop
  | .method m => ∃ d outer, around = d :: outer ∧ m.declaring = some d.toRef
  | .returning s =>
    ∃ d outer m, around = d :: outer ∧ s.enclosing = some m ∧ m.declaring = some d.toRef
  | _ => True

/-! ### The pieces of a file -/

namespace Java

/-- A piece of a file: a type without its members, a field, a method without its body, or what
stands in the body of a method. -/
inductive Piece where
  | type (h : TypeHead)
  | field (type : String) (names : List String)
  | method (h : MethodHead)
  | call (method : MethodHead) (receiver : Receiver) (name : String)
  | returning (method : MethodHead) (value : Option Expr)

mutual

/-- A type and all that is inside it, in source order, each piece with the types around it. -/
def TypeSyntax.pieces (around : List TypeHead) : TypeSyntax → List (List TypeHead × Piece)
  | .mk h members => (around, .type h) :: Member.pieces (h :: around) members

/-- The members of a type, each method followed by what is in its body. -/
def Member.pieces (around : List TypeHead) : List Member → List (List TypeHead × Piece)
  | [] => []
  | .field type names :: ms => (around, .field type names) :: Member.pieces around ms
  | .method h body :: ms =>
    (around, .method h) :: (Item.pieces around h body ++ Member.pieces around ms)
  | .type t :: ms => TypeSyntax.pieces around t ++ Member.pieces around ms

/-- What is in the body of a method. -/
def Item.pieces (around : List TypeHead) (method : MethodHead) :
    List Item → List (List TypeHead × Piece)
  | [] => []
  | .call receiver name :: is => (around, .call method receiver name) :: Item.pieces around method is
  | .returning value :: is => (around, .returning method value) :: Item.pieces around method is
  | .anonymous t :: is => TypeSyntax.pieces around t ++ Item.pieces around method is

end

/-- The pieces of a file in source order, each with the types around it, the innermost first. -/
def FileSyntax.pieces (f : FileSyntax) : List (List TypeHead × Piece) :=
  f.types.flatMap (TypeSyntax.pieces [])

end Java

/-! ### The events of the pieces -/

namespace Project

open Java (TypeHead MethodHead TypeSyntax Member Item FileSyntax Piece)

namespace Place

/-- The names of the types around, the outermost first. Anonymous classes have none. -/
def chainOf (around : List TypeDecl) : List String :=
  ((around.filter fun d => !d.isAnonymous).map (·.qualified)).reverse

/-- The declarations of types inside each other, the innermost first. -/
def opened (p : Place) : List TypeHead → List TypeDecl
  | [] => []
  | h :: hs => p.declaration (chainOf (p.opened hs)) h :: p.opened hs

/-- The event of a piece inside some open types. Names are resolved in the scope of these types, and
the innermost of them declares the method and contains the return statement. -/
def event (p : Place) (around : List TypeDecl) : Piece → Event
  | .type h => .entered (p.declaration (chainOf around) h)
  | .field type names =>
    .field { names, fieldType := p.index.resolveType? (p.scope (chainOf around)) type }
  | .method h =>
    .method
      { name := h.name
        declaring := around.head?.map (·.toRef)
        isConstructor := h.isConstructor
        isPublic := h.modifiers.isPublic
        isAbstract := h.modifiers.isAbstract
        parameters := h.params.map fun v => p.index.resolveType? (p.scope (chainOf around)) v.type
        returnType := p.returnType? (chainOf around) h }
  | .call h receiver name =>
    .invocation (p.index.invocation? (p.body (chainOf around) h) receiver name)
  | .returning h value =>
    .returning
      { enclosing := some
          { name := h.name
            isConstructor := h.isConstructor
            declaring := around.head?.map (·.toRef)
            returnType := p.returnType? (chainOf around) h }
        expression := value.bind (p.index.exprType? (p.body (chainOf around) h)) }

/-- A piece with the types around it, as an event with the types that are open at it. -/
def place (p : Place) (x : List TypeHead × Piece) : List TypeDecl × Event :=
  (p.opened x.1, p.event (p.opened x.1) x.2)

/-- The open types give the chain in which the next type is resolved. -/
theorem chainOf_opened_cons (p : Place) (h : TypeHead) (hs : List TypeHead) :
    chainOf (p.opened (h :: hs)) = p.chainInside (chainOf (p.opened hs)) h := by
  have hanonymous : (p.declaration (chainOf (p.opened hs)) h).isAnonymous = h.isAnonymous := rfl
  have hname : (p.declaration (chainOf (p.opened hs)) h).qualified =
      p.nameOf (chainOf (p.opened hs)) h := rfl
  rw [opened, chainOf, List.filter_cons, hanonymous, chainInside]
  cases h.isAnonymous with
  | true => rfl
  | false =>
      simp only [Bool.not_false, if_true, List.map_cons, List.reverse_cons, hname]
      rfl

/-- Inside some open types, a stretch of events stands for some pieces. -/
structure Spells (p : Place) (hs : List TypeHead) (es : List Event)
    (xs : List (List TypeHead × Piece)) : Prop where
  /-- A scan that comes to the events finds the pieces, and goes on with the same types open. -/
  placed? : ∀ rest, Event.placed? (p.opened hs) (es ++ rest) =
    (Event.placed? (p.opened hs) rest).map (xs.map p.place ++ ·)
  /-- The events name the types that they stand in. -/
  owned : ∀ x ∈ xs, (p.event (p.opened x.1) x.2).Owned (p.opened x.1)

namespace Spells

variable {p : Place} {h : TypeHead} {hs : List TypeHead} {es fs : List Event}
  {xs ys : List (List TypeHead × Piece)}

theorem nil : p.Spells hs [] [] where
  placed? rest := by simp
  owned x hx := absurd hx List.not_mem_nil

theorem append (hes : p.Spells hs es xs) (hfs : p.Spells hs fs ys) :
    p.Spells hs (es ++ fs) (xs ++ ys) where
  placed? rest := by
    rw [List.append_assoc, hes.placed?, hfs.placed?, Option.map_map, List.map_append]
    congr 1
    funext found
    exact (List.append_assoc _ _ _).symm
  owned x hx := (List.mem_append.mp hx).elim (hes.owned x) (hfs.owned x)

/-- What is no type opens and closes nothing. -/
theorem content {x : Piece} (hx : ∀ h, x ≠ .type h) :
    p.Spells (h :: hs) [p.event (p.opened (h :: hs)) x] [(h :: hs, x)] where
  placed? rest := by
    cases x with
    | type h => exact absurd rfl (hx h)
    | _ => rfl
  owned y hy := by
    obtain rfl := List.mem_singleton.mp hy
    cases x with
    | type h => exact absurd rfl (hx h)
    | field type names => exact trivial
    | method m => exact ⟨_, _, rfl, rfl⟩
    | call m receiver name => exact trivial
    | returning m value => exact ⟨_, _, _, rfl, rfl, rfl⟩

/-- A type is open up to its end. -/
theorem block (hes : p.Spells (h :: hs) es xs) :
    p.Spells hs (.entered (p.declaration (chainOf (p.opened hs)) h) :: (es ++ [.exited]))
      ((hs, .type h) :: xs) where
  placed? rest := by
    have hinside := hes.placed? (.exited :: rest)
    rw [opened, Event.placed?] at hinside
    rw [List.cons_append, List.append_assoc, List.singleton_append, Event.placed?, hinside,
      Option.map_map]
    rfl
  owned x hx := by
    rcases List.mem_cons.mp hx with rfl | hx
    · exact trivial
    · exact hes.owned x hx

end Spells

mutual

/-- **The events of a type are its pieces**, whatever types are around it. -/
theorem spells_typeEvents (p : Place) (hs : List TypeHead) (t : TypeSyntax) :
    p.Spells hs (p.typeEvents (chainOf (p.opened hs)) t) (t.pieces hs) := by
  match t with
  | .mk h members =>
      rw [typeEvents, TypeSyntax.pieces, ← chainOf_opened_cons]
      exact (spells_memberEvents p h hs members).block

theorem spells_memberEvents (p : Place) (h : TypeHead) (hs : List TypeHead) (ms : List Member) :
    p.Spells (h :: hs)
      (p.memberEvents (chainOf (p.opened (h :: hs)))
        (p.declaration (chainOf (p.opened hs)) h).toRef ms)
      (Member.pieces (h :: hs) ms) := by
  match ms with
  | [] => exact Spells.nil
  | .field type names :: ms =>
      have hfield : p.Spells (h :: hs) _ [(h :: hs, .field type names)] := .content (by simp)
      exact hfield.append (spells_memberEvents p h hs ms)
  | .method m body :: ms =>
      have hmethod : p.Spells (h :: hs) _ [(h :: hs, .method m)] := .content (by simp)
      exact hmethod.append
        ((spells_itemEvents p h hs m body).append (spells_memberEvents p h hs ms))
  | .type t :: ms =>
      exact (spells_typeEvents p (h :: hs) t).append (spells_memberEvents p h hs ms)

theorem spells_itemEvents (p : Place) (h : TypeHead) (hs : List TypeHead) (m : MethodHead)
    (is : List Item) :
    p.Spells (h :: hs)
      (p.itemEvents (chainOf (p.opened (h :: hs)))
        (p.enclosing (chainOf (p.opened (h :: hs)))
          (p.declaration (chainOf (p.opened hs)) h).toRef m)
        (p.body (chainOf (p.opened (h :: hs))) m) is)
      (Item.pieces (h :: hs) m is) := by
  match is with
  | [] => exact Spells.nil
  | .call receiver name :: is =>
      have hcall : p.Spells (h :: hs) _ [(h :: hs, .call m receiver name)] := .content (by simp)
      exact hcall.append (spells_itemEvents p h hs m is)
  | .returning value :: is =>
      have hreturn : p.Spells (h :: hs) _ [(h :: hs, .returning m value)] := .content (by simp)
      exact hreturn.append (spells_itemEvents p h hs m is)
  | .anonymous t :: is =>
      exact (spells_typeEvents p (h :: hs) t).append (spells_itemEvents p h hs m is)

end

/-- The events of types one after the other. -/
theorem spells_flatMap (p : Place) (ts : List TypeSyntax) :
    p.Spells [] (ts.flatMap (p.typeEvents [])) (ts.flatMap (TypeSyntax.pieces [])) := by
  induction ts with
  | nil => exact Spells.nil
  | cons t ts ih => exact (spells_typeEvents p [] t).append ih

end Place

/-- **Files are flattened in source order.** The events of a file are its imports, in order, and then
well-nested types. These hold one event for each piece of the file, in source order, and the types
open at an event are those around its piece. A method is declared by the innermost open type, and so
is the method around a return statement. -/
theorem events_inSourceOrder (ix : Index) (file : Nat) (f : FileSyntax) :
    ∃ nested placed, (unitOf ix file f).events = f.imports.map .importing ++ nested ∧
      Event.placed? [] nested = some placed ∧
      placed = f.pieces.map (placeOf ix file f).place ∧
      ∀ x ∈ placed, x.2.Owned x.1 := by
  have hspells := (placeOf ix file f).spells_flatMap f.types
  refine ⟨_, _, rfl, ?_, rfl, fun x hx => ?_⟩
  · have hplaced := hspells.placed? []
    rw [List.append_nil] at hplaced
    exact hplaced.trans (congrArg some (List.append_nil _))
  · obtain ⟨y, hy, rfl⟩ := List.mem_map.mp hx
    exact hspells.owned y hy

end Project

end Variability
