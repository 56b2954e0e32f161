import Variability.Source.Event

/-!
# What is read of a Java file

The syntax of a file as far as the analysis looks at it: the package, the imports, and the declared
types with their fields, methods and member types. Of a method body there remain the calls, the
return statements and the anonymous classes, in source order, and the local variables. Types and
names are still text as written, without blanks.
-/

namespace Variability.Java

/-- The written modifiers that matter. -/
structure Modifiers where
  isPublic : Bool := false
  isPrivate : Bool := false
  isAbstract : Bool := false
  isStatic : Bool := false
  isDefault : Bool := false
  deriving DecidableEq, Repr, Inhabited

namespace Modifiers

/-- The modifiers with one more word; other words do not matter. -/
def mark (m : Modifiers) : String → Modifiers
  | "public" => { m with isPublic := true }
  | "private" => { m with isPrivate := true }
  | "abstract" => { m with isAbstract := true }
  | "static" => { m with isStatic := true }
  | "default" => { m with isDefault := true }
  | _ => m

/-- The modifiers among some words. -/
def ofWords (words : List String) : Modifiers := words.foldl mark {}

/-- The words for the modifiers, each once and in a fixed order. -/
def words (m : Modifiers) : List String :=
  [("public", m.isPublic), ("private", m.isPrivate), ("abstract", m.isAbstract),
    ("static", m.isStatic), ("default", m.isDefault)].filterMap fun (word, given) =>
      if given then some word else none

end Modifiers

/-- A variable with its written type. -/
structure Variable where
  type : String
  name : String
  deriving DecidableEq, Repr, Inhabited

mutual

/-- An expression, as far as its type can be told from its form. -/
inductive Expr where
  | null
  /-- The creation of an object; `anonymous` when a class body follows. -/
  | creation (type : String) (anonymous : Bool)
  | arrayCreation (type : String)
  | self
  | name (name : String)
  | field (object : Expr) (field : String)
  | cast (type : String)
  /-- A literal, with the name of its type. -/
  | literal (type : String)
  | call (receiver : Receiver) (name : String)
  /-- Any other expression. -/
  | other

/-- What a method is called on. -/
inductive Receiver where
  | implicit
  | self
  | super
  | expr (e : Expr)

end

instance : Inhabited Expr := ⟨.other⟩
instance : Inhabited Receiver := ⟨.implicit⟩

/-- A type declaration without its members. -/
structure TypeHead where
  /-- Empty for an anonymous class. -/
  name : String := ""
  kind : TypeKind := .classKind
  modifiers : Modifiers := {}
  isAnonymous : Bool := false
  superclass : Option String := none
  interfaces : List String := []
  deriving DecidableEq, Repr, Inhabited

/-- A method or constructor without its body. -/
structure MethodHead where
  name : String := ""
  isConstructor : Bool := false
  modifiers : Modifiers := {}
  hasBody : Bool := false
  returnType : Option String := none
  params : List Variable := []
  locals : List Variable := []
  deriving DecidableEq, Repr, Inhabited

mutual

/-- A type declaration. -/
inductive TypeSyntax where
  | mk (head : TypeHead) (members : List Member)

/-- A member of a type. -/
inductive Member where
  | field (type : String) (names : List String)
  | method (head : MethodHead) (body : List Item)
  | type (t : TypeSyntax)

/-- What a method body contains. -/
inductive Item where
  | call (receiver : Receiver) (name : String)
  | returning (value : Option Expr)
  | anonymous (t : TypeSyntax)

end

namespace TypeSyntax

/-- The declaration without its members. -/
def head : TypeSyntax → TypeHead
  | mk head _ => head

/-- The members of the declaration. -/
def members : TypeSyntax → List Member
  | mk _ members => members

end TypeSyntax

/-- A Java file. -/
structure FileSyntax where
  path : String := ""
  package : Option String := none
  imports : List Import := []
  types : List TypeSyntax := []

end Variability.Java
