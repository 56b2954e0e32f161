import Variability.Java.Grammar.Declaration

/-!
# Reading a Java file

The recursion of the grammar is closed here: constructs nested `n + 1` deep are read by rules over
the readers for depth `n`. A text cannot nest deeper than it has tokens.

At the top level of a file the package, the imports and the types count. Methods and statements can
stand there too and are passed over, and so is anything that cannot be read, one token at a time.
-/

namespace Variability.Java

open Reader

/-- The readers of constructs that nest at most to the given depth. -/
def Nested.depth : Nat → Nested
  | 0 => .none
  | n + 1 =>
    let r := depth n
    { type := Grammar.type r
      elementValue := Grammar.elementValue r (Grammar.annotationUse r)
      expression := Grammar.expression r
      operand := Grammar.operand r
      initializer := Grammar.initializer r
      recordPattern := Grammar.recordPattern r
      statement := Grammar.statement r
      members := Grammar.members r }

namespace File

/-- What stands at the top level of a file. -/
inductive Part where
  | package (name : String)
  | importing (i : Import)
  | type (t : TypeSyntax)
  | passedOver

/-- A package declaration. -/
def package (r : Nested) : Reader Part := do
  let _ ← Grammar.annotations r
  word "package"
  let n ← textOf Grammar.qualifiedName
  sign ";"
  return .package n

/-- An import. -/
def importing : Reader Part := do
  word "import"
  let isStatic ← opt (word "static")
  let path ← textOf Grammar.qualifiedName
  let onDemand ← opt (sign "." *> sign "*")
  sign ";"
  return .importing ⟨path, onDemand.isSome, isStatic.isSome⟩

/-- A module declaration. -/
def moduleDeclaration (r : Nested) : Reader Part := do
  let _ ← Grammar.annotations r
  let _ ← opt (word "open")
  word "module"
  Grammar.qualifiedName
  expect (sign "\x7b")
  skipBlock
  return .passedOver

/-- A type. -/
def typePart (r : Nested) : Reader Part := do
  let ms := (← Grammar.modifiers r).modifiers
  match ← Grammar.typeDeclaration r ms with
  | some t => return .type t
  | none => return .passedOver

/-- A method outside of any type. -/
def looseMethod (r : Nested) : Reader Part := do
  let ms := (← Grammar.modifiers r).modifiers
  let _ ← Grammar.method r ms
  return .passedOver

/-- The next part of a file. -/
def part (r : Nested) : Reader Part :=
  package r <|> importing <|> moduleDeclaration r <|> typePart r <|> looseMethod r <|>
  (r.statement *> pure .passedOver) <|>
  (next *> pure .passedOver)

/-- The package of a file, if the part names it. -/
def Part.package? : Part → Option String
  | .package n => some n
  | _ => none

/-- The import, if the part is one. -/
def Part.import? : Part → Option Import
  | .importing i => some i
  | _ => none

/-- The type, if the part declares one. -/
def Part.type? : Part → Option TypeSyntax
  | .type t => some t
  | _ => none

end File

/-- Reads a Java file. The first package declaration counts. -/
def FileSyntax.read (path text : String) : FileSyntax :=
  let tokens := Token.scan text
  let parts := (upTo (File.part (.depth (tokens.length + 1))) tokens tokens).1
  { path
    package := parts.findSome? File.Part.package?
    imports := parts.filterMap File.Part.import?
    types := parts.filterMap File.Part.type? }

end Variability.Java
