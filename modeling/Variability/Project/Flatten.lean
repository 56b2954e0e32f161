import Variability.Project.Lookup

/-!
# Flattening files into events

A file becomes a source unit: its imports, and for each of its types the events between the type's
start and end, with every reference resolved against the index of the project. A type inside a
type, also an anonymous one in a method body, is nested between the start and end of its
surroundings.
-/

namespace Variability.Project

open Java (TypeHead MethodHead TypeSyntax Member Item FileSyntax)

/-- The file that is being flattened. -/
structure Place where
  index : Index
  file : Nat
  package : Option String

namespace Place

/-- The scope inside a chain of types of the file. -/
def scope (p : Place) (chain : List String) : Scope := { file := p.file, chain }

/-- The full name of a type inside a chain of types. An anonymous class has none. -/
def nameOf (p : Place) (chain : List String) (h : TypeHead) : String :=
  if h.isAnonymous then ""
  else
    match chain.getLast? with
    | some outer => Name.child outer h.name
    | none => Name.qualify p.package h.name

/-- The declaration of a type inside a chain of types. -/
def declaration (p : Place) (chain : List String) (h : TypeHead) : TypeDecl :=
  let qualified := p.nameOf chain h
  let (superclass, interfaces) :=
    if h.isAnonymous then (none, []) else p.index.supertypes qualified
  { qualified
    simple := h.name
    package := (p.package.map fun s => Text.split s '.').getD []
    kind := h.kind
    isAbstract := h.modifiers.isAbstract
    isPublic := h.modifiers.isPublic
    isPrivate := h.modifiers.isPrivate
    isNested := !chain.isEmpty || h.isAnonymous
    isAnonymous := h.isAnonymous
    superclass
    interfaces }

/-- The chain inside a type: an anonymous class adds nothing to it. -/
def chainInside (p : Place) (chain : List String) (h : TypeHead) : List String :=
  if h.isAnonymous then chain else chain ++ [p.nameOf chain h]

/-- The resolved return type of a method. -/
def returnType? (p : Place) (chain : List String) (h : MethodHead) : Option TypeRef :=
  h.returnType.bind (p.index.resolveType? (p.scope chain))

/-- The declaration of a method. -/
def method (p : Place) (chain : List String) (declaring : TypeRef) (h : MethodHead) :
    MethodDecl where
  name := h.name
  declaring := some declaring
  isConstructor := h.isConstructor
  isPublic := h.modifiers.isPublic
  isAbstract := h.modifiers.isAbstract
  parameters := h.params.map fun v => p.index.resolveType? (p.scope chain) v.type
  returnType := p.returnType? chain h

/-- The method around the return statements of a body. -/
def enclosing (p : Place) (chain : List String) (declaring : TypeRef) (h : MethodHead) :
    EnclosingMethod where
  name := h.name
  isConstructor := h.isConstructor
  declaring := some declaring
  returnType := p.returnType? chain h

/-- Where the expressions of a method body stand. -/
def body (p : Place) (chain : List String) (h : MethodHead) : BodyScope :=
  { scope := p.scope chain, params := h.params, locals := h.locals }

mutual

/-- The events of a type inside a chain of types. -/
def typeEvents (p : Place) (chain : List String) : TypeSyntax → List Event
  | .mk h members =>
    let d := p.declaration chain h
    .entered d :: (memberEvents p (p.chainInside chain h) d.toRef members ++ [.exited])

/-- The events of the members of a type. -/
def memberEvents (p : Place) (chain : List String) (declaring : TypeRef) :
    List Member → List Event
  | [] => []
  | .field type names :: ms =>
    .field { names, fieldType := p.index.resolveType? (p.scope chain) type } ::
      memberEvents p chain declaring ms
  | .method h items :: ms =>
    .method (p.method chain declaring h) ::
      (itemEvents p chain (p.enclosing chain declaring h) (p.body chain h) items ++
        memberEvents p chain declaring ms)
  | .type t :: ms => typeEvents p chain t ++ memberEvents p chain declaring ms

/-- The events of a method body. -/
def itemEvents (p : Place) (chain : List String) (method : EnclosingMethod) (b : BodyScope) :
    List Item → List Event
  | [] => []
  | .call receiver name :: is =>
    .invocation (p.index.invocation? b receiver name) :: itemEvents p chain method b is
  | .returning value :: is =>
    .returning { enclosing := some method, expression := value.bind (p.index.exprType? b) } ::
      itemEvents p chain method b is
  | .anonymous t :: is => typeEvents p chain t ++ itemEvents p chain method b is

end

end Place

/-- Flattens one file; `file` is its position among the indexed files. -/
def unitOf (ix : Index) (file : Nat) (f : FileSyntax) : SourceUnit :=
  let p : Place := { index := ix, file, package := f.package }
  { path := f.path
    package := f.package
    events := f.imports.map .importing ++ f.types.flatMap (p.typeEvents []) }

/-- Indexes files and flattens each of them. -/
def units (files : List FileSyntax) : List SourceUnit :=
  files.mapIdx (unitOf (Index.build files))

end Variability.Project
