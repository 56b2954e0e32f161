import Variability.Project.Index

/-!
# Resolving written types

A written name is looked up as a compiler would: among the enclosing types and their member types
from the innermost outwards, in the package of the file, among the single-type imports, in the
on-demand imported packages, and at last among the types that are visible everywhere. A name that
is found nowhere stands for itself.
-/

namespace Variability.Project

open Java (WrittenType)

/-- The types that are no references. -/
def primitives : List String :=
  ["boolean", "byte", "char", "short", "int", "long", "float", "double", "void"]

/-- The types of the package `java.lang` that are visible without an import. -/
def javaLang : List String :=
  ["Object", "String", "StringBuilder", "StringBuffer", "CharSequence",
    "Integer", "Long", "Short", "Byte", "Character", "Boolean", "Float", "Double",
    "Number", "Math", "System", "Thread", "Runnable", "Iterable", "Comparable",
    "Cloneable", "AutoCloseable", "Class", "Enum", "Void", "Record",
    "Throwable", "Exception", "RuntimeException", "Error",
    "IllegalArgumentException", "IllegalStateException", "NullPointerException",
    "UnsupportedOperationException", "IndexOutOfBoundsException",
    "Override", "Deprecated", "FunctionalInterface", "SuppressWarnings"]

/-- Where a name is looked up: a file, and the enclosing types, outermost first. -/
structure Scope where
  file : Nat := 0
  chain : List String := []
  deriving DecidableEq, Repr, Inhabited

namespace Index

/-- What a simple name means inside one enclosing type: the type itself or a member type. -/
def enclosed? (ix : Index) (name enclosing : String) : Option String :=
  match ix.get? enclosing with
  | none => none
  | some t =>
    if t.simple == name then some t.qualified
    else if t.memberTypes.contains name then some (Name.child t.qualified name)
    else none

/-- The first single-type import that ends in a name. -/
def importedAs? (file : FileScope) (name : String) : Option String :=
  (file.imports.find? fun i =>
    !i.isStatic && !i.onDemand && Text.endsWith i.path ("." ++ name)).map (·.path)

/-- The first on-demand imported package that declares a name. -/
def importedOnDemand? (ix : Index) (file : FileScope) (name : String) : Option String :=
  ((file.imports.filter fun i => !i.isStatic && i.onDemand).map
    fun i => Name.child i.path name).find? ix.contains

/-- What a simple name means in a file, outside of all types. -/
def inFile? (ix : Index) (file : FileScope) (name : String) : Option String :=
  let samePackage := Name.qualify file.package name
  if ix.contains samePackage then some samePackage
  else importedAs? file name <|> ix.importedOnDemand? file name <|>
    if javaLang.contains name then some (Name.child "java.lang" name) else none

/-- The full name of a simple name. -/
def resolveSimple? (ix : Index) (s : Scope) (name : String) : Option String :=
  s.chain.reverse.findSome? (ix.enclosed? name) <|>
    (ix.files[s.file]?).bind fun file => ix.inFile? file name

/-- The full name of a dotted name: its first segment is looked up, the others are appended. A
name of several segments whose first is unknown is taken to be full already. -/
def resolveBase? (ix : Index) (s : Scope) (base : String) : Option String :=
  match Text.split base '.' with
  | [] => none
  | [first] => ix.resolveSimple? s first
  | first :: rest =>
    match ix.resolveSimple? s first with
    | some q => some (Name.child q (String.intercalate "." rest))
    | none => some base

/-- The reference to an array type: neither an interface nor an enumeration. -/
def arrayOf (r : TypeRef) (dimensions : Nat) : TypeRef :=
  if dimensions = 0 then r
  else { r with
    simple := r.simple ++ WrittenType.brackets dimensions
    isInterface := false
    isEnum := false }

/-- Resolves a written type. Only a type without a name has no answer. -/
def resolveType? (ix : Index) (s : Scope) (text : String) : Option TypeRef :=
  let w := WrittenType.split text
  let dims := WrittenType.brackets w.dimensions
  if w.base.isEmpty then none
  else if primitives.contains w.base then
    some { qualified := w.base ++ dims, simple := w.base ++ dims }
  else
    let base := (ix.resolveBase? s w.base).getD w.base
    some { arrayOf (ix.typeRef base) w.dimensions with
      qualified := base ++ w.arguments ++ dims }

/-- The scope inside a declared type. -/
def scopeOf (ix : Index) (t : TypeInfo) : Scope :=
  { file := t.file, chain := ix.chain t.qualified }

/-- The resolved superclass and interfaces of a declared type. -/
def supertypes (ix : Index) (qualified : String) : Option TypeRef × List TypeRef :=
  match ix.get? qualified with
  | none => (none, [])
  | some t =>
    let s := ix.scopeOf t
    (t.superclass.bind (ix.resolveType? s), t.interfaces.filterMap (ix.resolveType? s))

/-- The erased names of the supertypes of a declared type, superclass first. -/
def supertypeNames (ix : Index) (qualified : String) : List String :=
  let (superclass, interfaces) := ix.supertypes qualified
  (superclass.toList ++ interfaces).map (·.erasure)

end Index

end Variability.Project
