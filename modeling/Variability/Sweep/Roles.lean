import Variability.Sweep.Declarations
import Variability.Sweep.Target

/-!
# Third sweep: strategies, decorators and template methods

Fields point to strategies and decorators, calls to template methods. A type that is held in a
field is a strategy if it is called one or has two variants; it is a decorator if it is called
one; and the type that holds it is a decorator if it inherits from it. A type is a template if a
call goes to it, it has a variant, and it is called a template or calls an abstract method of its
own.
-/

namespace Variability.Sweep

/-- What the third sweep found. -/
structure RoleCounts where
  strategies : Nat := 0
  decorators : Nat := 0
  templates : Nat := 0
  deriving DecidableEq, Repr, Inhabited

/-- Marks a node as a decorator. -/
def markDecorator (id : NodeId) : StateT RoleCounts Session Unit := do
  Session.addLabel id .decorator
  modify fun n => { n with decorators := n.decorators + 1 }

/-- Whether the type named `name` extends or implements the type of a node. -/
def inheritsFrom (name : String) (id : NodeId) : Session Bool := do
  let superclass ← Session.superclassOf name
  let interfaces ← Session.interfacesOf name
  return superclass.any (·.id == id) || interfaces.any (·.id == id)

/-- Marks the current type as a decorator if it inherits from the type of its field, that type
has at least two variants and the current one has at least one. -/
def markHolder (current : TypeDecl) (field : NodeId) : StateT RoleCounts Session Unit := do
  match ← Session.findByName current.qualified with
  | none => pure ()
  | some holder =>
    if ← inheritsFrom current.qualified field then
      if (← Session.variantCount field) ≥ 2 then
        if (← Session.variantCount holder.id) ≥ 1 then
          markDecorator holder.id

/-- Whether a field type is a strategy: it is called one, or its node has two variants. -/
def isStrategy (r : TypeRef) (id : NodeId) : Session Bool :=
  if Text.contains r.simple "Strategy" then pure true
  else return (← Session.variantCount id) ≥ 2

/-- Marks the type of a field, and the type that holds it. -/
def markField (current : TypeDecl) (r : TypeRef) (node : Node) :
    StateT RoleCounts Session Unit := do
  if ← isStrategy r node.id then
    Session.addLabel node.id .strategy
    modify fun n => { n with strategies := n.strategies + 1 }
  if Text.contains r.simple "Decorator" then
    markDecorator node.id
  markHolder current node.id

/-- Looks at a field of the current type. -/
def rolesOfField (c : Context) (d : FieldDecl) : StateT RoleCounts Session Unit :=
  match d.fieldType, c.current? with
  | some r, some current =>
    if r.isEnum then pure ()
    else do
      match ← Target.resolve r c.imports with
      | none => pure ()
      | some name =>
        match ← Session.findByName name with
        | none => pure ()
        | some node => if node.isOutOfScope then pure () else markField current r node
  | _, _ => pure ()

/-- Whether a call makes its declaring type a template, as far as the call alone can tell. -/
def isTemplateCall (c : Context) (i : Invocation) : Bool :=
  Text.contains i.declaring.simple "Template" ||
    (c.current?.any (·.qualified == i.declaring.erasure) && i.isAbstract)

/-- Looks at a call inside the current type. The type that declares the called method gets a node
if it has none. -/
def rolesOfCall (c : Context) (i : Invocation) : StateT RoleCounts Session Unit := do
  let node ← Session.getOrCreateNode i.declaring.erasure i.declaring.nodeKind [.outOfScope] []
  if (← Session.variantCount node.id) = 0 then pure ()
  else if isTemplateCall c i then
    Session.addLabel node.id .template
    modify fun n => { n with templates := n.templates + 1 }

/-- The sweep that marks strategies, decorators and templates. -/
def roles : Sweep (StateT RoleCounts Session) where
  name := "strategy/template/decorator"
  field := rolesOfField
  invocation := rolesOfCall

end Variability.Sweep
