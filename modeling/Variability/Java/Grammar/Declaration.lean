import Variability.Java.Grammar.Statement

/-!
# Declarations

Classes, interfaces and enums with their members. Of an enum only the head is read. Records and
annotation types are passed over, and so are initializer blocks and compact constructors.
-/

namespace Variability.Java.Grammar

open Reader

/-! ### Methods and fields -/

/-- The exceptions that a method can throw. -/
def throwsClause (r : Nested) : Reader Unit := do
  word "throws"
  let _ ← sepBy1 r.type (sign ",")

/-- The body of a method, or the semicolon in its place. -/
def methodBody (r : Nested) : Reader (Option Found) :=
  (some <$> block r) <|> (sign ";" *> pure none)

/-- A method or constructor from its parameters on. -/
def methodRest (r : Nested) (head : MethodHead) : Reader Member := do
  let (params, _) ← parameters r
  let _ ← dimensions r
  let _ ← opt (throwsClause r)
  let body ← methodBody r
  let found := Found.ofOption body
  return .method { head with hasBody := body.isSome, params, locals := found.locals } found.items

/-- A constructor after its modifiers. -/
def constructor (r : Nested) (ms : Modifiers) : Reader Member := do
  let _ ← opt (typeParameters r)
  let n ← name
  methodRest r { name := n, isConstructor := true, modifiers := ms }

/-- A method after its modifiers. -/
def method (r : Nested) (ms : Modifiers) : Reader Member := do
  let _ ← opt (typeParameters r *> annotations r)
  let t ← textOf (bareType r)
  let n ← name
  methodRest r { name := n, modifiers := ms, returnType := some t }

/-- Fields after their modifiers. -/
def fields (r : Nested) : Reader Member := do
  let vs ← variableList r
  return .field vs.type vs.names

/-! ### Types -/

/-- The superclass of a class. A comment in front of it is taken for it. -/
def superclass (r : Nested) : Reader String := do
  word "extends"
  let c ← comment?
  let t ← textOf r.type
  return c.getD t

/-- A list of types after the given word. -/
def supertypes (r : Nested) (w : String) : Reader (List String) := do
  word w
  typeList r

/-- The list of types that can extend a sealed type. -/
def permits (r : Nested) : Reader Unit := do
  let _ ← opt (supertypes r "permits")

/-- A class after its modifiers. -/
def classDeclaration (r : Nested) (ms : Modifiers) : Reader TypeSyntax := do
  word "class"
  let n ← name
  let _ ← opt (typeParameters r)
  let s ← opt (superclass r)
  let is ← opt (supertypes r "implements")
  permits r
  let members ← r.members
  let head : TypeHead := {
    name := n, kind := .classKind, modifiers := ms, superclass := s, interfaces := is.getD [] }
  return .mk head members

/-- An interface after its modifiers. -/
def interfaceDeclaration (r : Nested) (ms : Modifiers) : Reader TypeSyntax := do
  word "interface"
  let n ← name
  let _ ← opt (typeParameters r)
  let is ← opt (supertypes r "extends")
  permits r
  let members ← r.members
  let head : TypeHead := {
    name := n, kind := .interfaceKind, modifiers := ms, interfaces := is.getD [] }
  return .mk head members

/-- An enum after its modifiers. -/
def enumDeclaration (r : Nested) (ms : Modifiers) : Reader TypeSyntax := do
  word "enum"
  let n ← name
  let is ← opt (supertypes r "implements")
  expect (sign "\x7b")
  skipBlock
  let head : TypeHead := { name := n, kind := .enumKind, modifiers := ms, interfaces := is.getD [] }
  return .mk head []

/-- A type after its modifiers, or nothing for one that is passed over. -/
def typeDeclaration (r : Nested) (ms : Modifiers) : Reader (Option TypeSyntax) :=
  (some <$> classDeclaration r ms) <|>
  (some <$> interfaceDeclaration r ms) <|>
  (some <$> enumDeclaration r ms) <|>
  (typeStart *> skipBlock *> pure none)

/-! ### Members -/

/-- A member of a class or interface, or nothing for one that is passed over. -/
def member (r : Nested) : Reader (Option Member) :=
  (sign ";" *> pure none) <|>
  (opt (word "static") *> expect (sign "\x7b") *> skipBlock *> pure none) <|>
  (do
    let ms := (← modifiers r).modifiers
    (do return (← typeDeclaration r ms).map .type) <|>
      (name *> expect (sign "\x7b") *> skipBlock *> pure none) <|>
      (some <$> constructor r ms) <|>
      (some <$> method r ms) <|>
      (some <$> fields r))

/-- The body of a class or interface, with its braces. -/
def members (r : Nested) : Reader (List Member) :=
  braced do return (← many (member r)).filterMap id

end Variability.Java.Grammar
