import Variability.Store.Session

/-!
# Metrics

The counts that the analysis keeps as properties of nodes: overloaded methods and constructors,
public members, direct variants, compositions. Each metric reads the graph and overwrites one
property, so computing it again changes nothing.
-/

namespace Variability.Metric

/-- The numbers of the names that occur more than once. -/
def overloads (counts : List NameCount) : List Nat :=
  (counts.map (·.number)).filter (· > 1)

/-- How many neighbours of a node carry all the given labels. -/
def countMembers (id : NodeId) (labels : List Label) : Session Nat := do
  return (← Session.children id []).countP fun n => labels.all n.has

/-- The classes. -/
def classes : Session (List Node) := Session.nodesMatching (.labelled .classType)

/-- Sets a property of each class to what `f` counts for it. -/
def forClasses (p : Property) (f : Node → Session Nat) : Session Unit := do
  (← classes).forM fun n => do
    Session.setProperty n.id p (.ofCount (← f n))

/-- The number of method names that a class declares more than once. -/
def methodPoints : Session Unit :=
  forClasses .methodPoints fun n => do
    return (overloads (← Session.countSameName n.id .method)).length

/-- The number of methods that share their name with another method of their class. -/
def methodVariants : Session Unit :=
  forClasses .methodVariants fun n => do
    return (overloads (← Session.countSameName n.id .method)).foldl (· + ·) 0

/-- One for a class with more than one constructor, otherwise zero. -/
def constructorPoints : Session Unit :=
  forClasses .constructorPoints fun n => do
    return if (← countMembers n.id [.constructor]) > 1 then 1 else 0

/-- The number of constructors of a class, if there is more than one, otherwise zero. -/
def constructorVariants : Session Unit :=
  forClasses .constructorVariants fun n => do
    let count ← countMembers n.id [.constructor]
    return if count > 1 then count else 0

/-- The number of classes that directly extend or implement a type. -/
def typeVariants : Session Unit := do
  (← Session.nodesMatching .types).forM fun n => do
    Session.setProperty n.id .typeVariants (.ofCount (← Session.variantCount n.id))

/-- The number of public members of one kind of a public class; zero for any other class. -/
def publicMembers (kind : Label) (n : Node) : Session Nat :=
  if n.has .exposed then countMembers n.id [kind, .exposed] else pure 0

/-- The number of public methods of a public class. -/
def publicMethods : Session Unit := forClasses .publicMethods (publicMembers .method)

/-- The number of public constructors of a public class. -/
def publicConstructors : Session Unit :=
  forClasses .publicConstructors (publicMembers .constructor)

/-- The number of types a node is composed of; left unset if there are none. -/
def compositions : Session Unit := do
  (← Session.nodes).forM fun n => do
    let composed ← Session.children n.id [.composing]
    unless composed.isEmpty do
      Session.setProperty n.id .compositions (.ofCount composed.length)

/-- The number of methods of a class. -/
def allMethods : Session Unit :=
  forClasses .allMethods fun n => countMembers n.id [.method]

end Variability.Metric
