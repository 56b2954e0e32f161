import Variability.Project.Resolve

/-!
# Looking up members and typing expressions

A member is looked up in a type, then in its supertypes, nearest first: a breadth-first search
that takes the superclass before the interfaces. With it the types of expressions and the declaring
types of called methods are found.
-/

namespace Variability.Project

open Java (Variable Expr Receiver)

/-- Where an expression stands: a scope, and the variables of the enclosing method. -/
structure BodyScope where
  scope : Scope := {}
  params : List Variable := []
  locals : List Variable := []
  deriving DecidableEq, Repr, Inhabited

/-- The innermost enclosing type. -/
def BodyScope.current? (b : BodyScope) : Option String := b.scope.chain.getLast?

namespace Index

/-- Searches the types in `queue` and their supertypes, each once, for the first that `hit`
answers for. -/
def search {α : Type} (ix : Index) (hit : TypeInfo → Option α) :
    Nat → List String → List String → Option α
  | 0, _, _ => none
  | _ + 1, [], _ => none
  | fuel + 1, q :: queue, visited =>
    if visited.contains q then search ix hit fuel queue visited
    else
      match ix.get? q with
      | none => search ix hit fuel queue (q :: visited)
      | some t =>
        match hit t with
        | some a => some a
        | none => search ix hit fuel (queue ++ ix.supertypeNames q) (q :: visited)

/-- How many names a search can put into its queue: the start, and the supertypes of each type
once. -/
def searchBound (ix : Index) : Nat :=
  1 + (ix.types.map fun t => 1 + t.interfaces.length).foldl (· + ·) 0

/-- The answer of the type nearest to `start` that `hit` answers for. -/
def nearest {α : Type} (ix : Index) (hit : TypeInfo → Option α) (start : String) : Option α :=
  ix.search hit ix.searchBound [start] []

/-- The method of a name in a type or its supertypes, with the declaring type. -/
def findMethod? (ix : Index) (qualified method : String) : Option (TypeInfo × MethodInfo) :=
  ix.nearest (fun t => (t.methods.find? (·.name == method)).map (t, ·)) qualified

/-- The type of the field of a name in a type or its supertypes, resolved where the field is
declared. -/
def findField? (ix : Index) (qualified name : String) : Option TypeRef :=
  (ix.nearest (fun t =>
    (t.fields.find? (·.name == name)).map fun f => ix.resolveType? (ix.scopeOf t) f.type)
    qualified).join

/-- The type of a variable: a local one, a parameter, or a field of an enclosing type. Later
variables hide earlier ones, inner types outer ones. -/
def varType? (ix : Index) (b : BodyScope) (name : String) : Option TypeRef :=
  match (b.locals.reverse ++ b.params.reverse).find? (·.name == name) with
  | some v => ix.resolveType? b.scope v.type
  | none => b.scope.chain.reverse.findSome? (ix.findField? · name)

/-- The type that a name stands for when a static method is called on it. Only a name that starts
with an upper case letter can be one. -/
def staticReceiver? (ix : Index) (s : Scope) (name : String) : Option TypeRef :=
  match name.toList with
  | [] => none
  | c :: _ => if c.isUpper then (ix.resolveBase? s name).map ix.typeRef else none

/-- A call of a method that a type of the project, or a supertype of it, declares. -/
def projectCall? (ix : Index) (method owner : String) : Option Invocation :=
  (ix.findMethod? owner method).map fun (t, m) =>
    { method, declaring := ix.typeRef t.qualified, isAbstract := m.isAbstract }

/-- A call of a method on a type outside the project: that type is taken to declare it. -/
def externalCall? (ix : Index) (method : String) (receiver : TypeRef) : Option Invocation :=
  if ix.contains receiver.erasure then none
  else some { method, declaring := { receiver with qualified := receiver.erasure } }

/-- A call of a method on a type. -/
def callOn? (ix : Index) (method : String) (receiver : TypeRef) : Option Invocation :=
  ix.projectCall? method receiver.erasure <|> ix.externalCall? method receiver

/-- A call of a method on what may have a type. Nothing can be called on null or on a primitive
value. -/
def callOnValue? (ix : Index) (method : String) (receiver : Option TypeRef) :
    Option Invocation :=
  receiver.bind fun r =>
    if r.isNull || primitives.contains r.erasure then none else ix.callOn? method r

/-- The type of an object of an anonymous class. -/
def anonymousRef : TypeRef := { qualified := "", simple := "", isNested := true }

/-- The type of what a call returns, resolved where the method is declared. -/
def resultOf? (ix : Index) (i : Invocation) : Option TypeRef := do
  let (t, m) ← ix.findMethod? i.declaring.erasure i.method
  ix.resolveType? (ix.scopeOf t) (← m.returnType)

mutual

/-- The type of an expression. -/
def exprType? (ix : Index) (b : BodyScope) : Expr → Option TypeRef
  | .null => some .null
  | .creation _ true => some anonymousRef
  | .creation type false => ix.resolveType? b.scope type
  | .cast type => ix.resolveType? b.scope type
  | .arrayCreation type => ix.resolveType? b.scope type
  | .self => b.current?.map ix.typeRef
  | .name n => ix.varType? b n
  | .field .self f => b.current?.bind (ix.findField? · f)
  | .field object f => (exprType? ix b object).bind fun r => ix.findField? r.erasure f
  | .literal q => some { qualified := q, simple := Name.simple q }
  | .call receiver method => (invocation? ix b receiver method).bind ix.resultOf?
  | .other => none

/-- The method that a call calls. -/
def invocation? (ix : Index) (b : BodyScope) (receiver : Receiver) (method : String) :
    Option Invocation :=
  match receiver with
  | .implicit => b.scope.chain.reverse.findSome? (ix.projectCall? method)
  | .self => b.current?.bind (ix.projectCall? method)
  | .super =>
    (b.current?.bind fun current => (ix.supertypes current).1).bind (ix.callOn? method)
  | .expr (.name n) => ix.callOnValue? method (ix.varType? b n <|> ix.staticReceiver? b.scope n)
  | .expr e => ix.callOnValue? method (exprType? ix b e)

end

end Index

end Variability.Project
