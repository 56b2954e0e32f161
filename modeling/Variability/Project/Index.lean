import Variability.Java.Syntax
import Variability.Java.WrittenType

/-!
# The index of declared types

All types that the files of a project declare, by their full names, with what has to be known
about them to resolve references. When two declarations have the same full name the later one
counts; a type is declared after its member types.
-/

namespace Variability.Project

open Java (Variable Modifiers TypeSyntax Member FileSyntax WrittenType)

/-- What is known about a method. -/
structure MethodInfo where
  name : String
  /-- Declared abstract, or an interface method without a body. -/
  isAbstract : Bool := false
  returnType : Option String := none
  deriving DecidableEq, Repr, Inhabited

/-- What is known about a declared type. -/
structure TypeInfo where
  qualified : String
  simple : String
  kind : TypeKind := .classKind
  modifiers : Modifiers := {}
  /-- The full name of the enclosing type. -/
  outer : Option String := none
  /-- The position of the declaring file. -/
  file : Nat := 0
  superclass : Option String := none
  interfaces : List String := []
  fields : List Variable := []
  methods : List MethodInfo := []
  memberTypes : List String := []
  deriving DecidableEq, Repr, Inhabited

/-- What names mean in a file before its own declarations are looked at. -/
structure FileScope where
  package : Option String := none
  imports : List Import := []
  deriving DecidableEq, Repr, Inhabited

/-- The declared types of a project, and the scopes of its files. -/
structure Index where
  files : List FileScope := []
  types : List TypeInfo := []
  deriving DecidableEq, Repr, Inhabited

/-- The variables that a member declares as fields. -/
def fieldsOf : Member → List Variable
  | .field type names => names.map fun name => { type, name }
  | _ => []

/-- What is known about a member that is a method. An interface method without a body is abstract
unless it is static or a default. -/
def methodOf? (kind : TypeKind) : Member → Option MethodInfo
  | .method h _ =>
    if h.isConstructor then none
    else
      let isImplicit := kind == .interfaceKind && !h.hasBody && !h.modifiers.isStatic &&
        !h.modifiers.isDefault
      some {
        name := h.name
        isAbstract := h.modifiers.isAbstract || isImplicit
        returnType := h.returnType }
  | _ => none

/-- The name of a member that is a type. -/
def memberTypeOf? : Member → Option String
  | .type t => some t.head.name
  | _ => none

/-- What is known about a declared type from its own declaration. -/
def infoOf (file : Nat) (outer : Option String) (qualified : String) (t : TypeSyntax) :
    TypeInfo where
  qualified := qualified
  simple := t.head.name
  kind := t.head.kind
  modifiers := t.head.modifiers
  outer := outer
  file := file
  superclass := t.head.superclass
  interfaces := t.head.interfaces
  fields := t.members.flatMap fieldsOf
  methods := t.members.filterMap (methodOf? t.head.kind)
  memberTypes := t.members.filterMap memberTypeOf?

mutual

/-- A declared type and its member types at any depth, each after its own member types. -/
def declared (file : Nat) (outer : Option String) (qualified : String) :
    TypeSyntax → List TypeInfo
  | .mk head members =>
    declaredMembers file qualified members ++ [infoOf file outer qualified (.mk head members)]

/-- The types declared by the members of a type, at any depth. -/
def declaredMembers (file : Nat) (outer : String) : List Member → List TypeInfo
  | [] => []
  | .type t :: ms =>
    declared file (some outer) (Name.child outer t.head.name) t ++ declaredMembers file outer ms
  | .field _ _ :: ms => declaredMembers file outer ms
  | .method _ _ :: ms => declaredMembers file outer ms

end

/-- The types declared in a file. -/
def declaredIn (file : Nat) (f : FileSyntax) : List TypeInfo :=
  f.types.flatMap fun t => declared file none (Name.qualify f.package t.head.name) t

namespace Index

/-- The type with a full name. -/
def get? (ix : Index) (qualified : String) : Option TypeInfo :=
  ix.types.find? (·.qualified == qualified)

/-- Whether a full name belongs to a declared type. -/
def contains (ix : Index) (qualified : String) : Bool := (ix.get? qualified).isSome

/-- Adds a type in place of any other of the same full name. -/
def insert (ix : Index) (t : TypeInfo) : Index :=
  { ix with types := ix.types.filter (·.qualified != t.qualified) ++ [t] }

/-- The index of a list of files. The position of a file in the list stands for its scope. -/
def build (files : List FileSyntax) : Index :=
  let scopes := files.map fun f => { package := f.package, imports := f.imports : FileScope }
  (files.mapIdx declaredIn).flatten.foldl insert { files := scopes }

/-- The number of declared types. -/
def size (ix : Index) : Nat := ix.types.length

/-- A declared type and the types around it, innermost first. A chain of distinct types is never
longer than the index. -/
def outward (ix : Index) : Nat → String → List String
  | 0, _ => []
  | fuel + 1, q =>
    match ix.get? q with
    | none => []
    | some t => t.qualified :: (t.outer.map (ix.outward fuel)).getD []

/-- A declared type and the types around it, outermost first. -/
def chain (ix : Index) (qualified : String) : List String :=
  (ix.outward ix.types.length qualified).reverse

/-- The reference to a declared type. A name that is not declared stands for itself. -/
def typeRef (ix : Index) (qualified : String) : TypeRef :=
  match ix.get? qualified with
  | some t =>
    { qualified := t.qualified
      simple := t.simple
      isInterface := t.kind == .interfaceKind
      isEnum := t.kind == .enumKind
      isNested := t.outer.isSome }
  | none => { qualified, simple := Name.simple qualified }

end Index

end Variability.Project
