import Variability.Text.Name

/-!
# Declaration events

A source unit is one file flattened into the order in which a walk through its declarations meets
them: the imports, then for each type an `entered` event, its contents, and an `exited` event.
Every reference to a type carries what it was resolved to; `none` says that it was not resolved.
-/

namespace Variability

/-- The kind of a declared type. -/
inductive TypeKind where
  | classKind
  | interfaceKind
  | enumKind
  deriving DecidableEq, Repr, Inhabited

namespace TypeKind

/-- All kinds of types. -/
def all : List TypeKind := [classKind, interfaceKind, enumKind]

/-- The written form of a type's kind. -/
def text : TypeKind → String
  | classKind => "class"
  | interfaceKind => "interface"
  | enumKind => "enum"

/-- The kind of type written as `s`. -/
def ofText? (s : String) : Option TypeKind := all.find? (·.text == s)

end TypeKind

/-- A resolved reference to a type. -/
structure TypeRef where
  /-- The full name, with generic arguments and array brackets. -/
  qualified : String
  /-- The last segment of the name, without generic arguments. -/
  simple : String
  isInterface : Bool := false
  isEnum : Bool := false
  isNested : Bool := false
  deriving DecidableEq, Repr, Inhabited

namespace TypeRef

/-- The type of the null literal. -/
def null : TypeRef := { qualified := "null", simple := "null" }

/-- Whether a reference is the type of the null literal. -/
def isNull (r : TypeRef) : Bool := r.qualified == "null"

/-- The full name without generic arguments. -/
def erasure (r : TypeRef) : String := Name.erasure r.qualified

end TypeRef

/-- An import of a file. -/
structure Import where
  /-- The imported name; for an on-demand import the package. -/
  path : String
  onDemand : Bool := false
  isStatic : Bool := false
  deriving DecidableEq, Repr, Inhabited

/-- The declaration of a type. -/
structure TypeDecl where
  qualified : String
  simple : String
  /-- The segments of the package name. -/
  package : List String := []
  kind : TypeKind := .classKind
  isAbstract : Bool := false
  isPublic : Bool := false
  isPrivate : Bool := false
  isNested : Bool := false
  isAnonymous : Bool := false
  superclass : Option TypeRef := none
  interfaces : List TypeRef := []
  deriving DecidableEq, Repr, Inhabited

namespace TypeDecl

/-- Whether an interface is declared. -/
def isInterface (d : TypeDecl) : Bool := d.kind == .interfaceKind

/-- Whether an enumeration is declared. -/
def isEnum (d : TypeDecl) : Bool := d.kind == .enumKind

/-- The reference to the declared type. -/
def toRef (d : TypeDecl) : TypeRef where
  qualified := d.qualified
  simple := d.simple
  isInterface := d.isInterface
  isEnum := d.isEnum
  isNested := d.isNested || d.isAnonymous

end TypeDecl

/-- The declaration of a method or constructor, with its written modifiers. -/
structure MethodDecl where
  name : String
  declaring : Option TypeRef := none
  isConstructor : Bool := false
  isPublic : Bool := false
  isAbstract : Bool := false
  parameters : List (Option TypeRef) := []
  returnType : Option TypeRef := none
  deriving DecidableEq, Repr, Inhabited

/-- A field declaration, which may declare several names. -/
structure FieldDecl where
  names : List String
  fieldType : Option TypeRef := none
  deriving DecidableEq, Repr, Inhabited

/-- A resolved call of a method. -/
structure Invocation where
  method : String
  /-- The type that declares the method. -/
  declaring : TypeRef
  isAbstract : Bool := false
  deriving DecidableEq, Repr, Inhabited

/-- The method around a return statement. -/
structure EnclosingMethod where
  name : String
  isConstructor : Bool := false
  declaring : Option TypeRef := none
  returnType : Option TypeRef := none
  deriving DecidableEq, Repr, Inhabited

/-- A return statement, with the type of the returned expression. -/
structure ReturnSite where
  enclosing : Option EnclosingMethod := none
  expression : Option TypeRef := none
  deriving DecidableEq, Repr, Inhabited

/-- What a walk through a source file meets. -/
inductive Event where
  | importing (i : Import)
  | entered (d : TypeDecl)
  | exited
  | method (d : MethodDecl)
  | field (d : FieldDecl)
  /-- A call; `none` when the called method was not resolved. -/
  | invocation (i : Option Invocation)
  | returning (r : ReturnSite)
  deriving DecidableEq, Repr, Inhabited

/-- One source file as a list of events. -/
structure SourceUnit where
  path : String := ""
  package : Option String := none
  events : List Event := []
  deriving DecidableEq, Repr, Inhabited

end Variability
