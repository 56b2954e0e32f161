import Variability.Graph.Basic

/-!
# Patterns on nodes and edges

Rules of the analysis speak of nodes with certain labels and of edges between such nodes.
`NodeFilter` states the first, `HopPattern` the second: a source, the accepted relations, a target.
-/

namespace Variability

/-- A condition on the labels of a node. -/
structure NodeFilter where
  /-- Labels that must all be there. -/
  all : List Label := []
  /-- Labels of which one must be there, if any are given. -/
  any : List Label := []
  /-- Labels that must not be there. -/
  none : List Label := []
  deriving DecidableEq, Repr, Inhabited

namespace NodeFilter

/-- Every node. -/
def anyNode : NodeFilter := {}

/-- The nodes with one label. -/
def labelled (l : Label) : NodeFilter := { all := [l] }

/-- The classes and interfaces. -/
def types : NodeFilter := { any := [.classType, .interfaceType] }

/-- Those nodes that do not carry `l`. -/
def without (f : NodeFilter) (l : Label) : NodeFilter := { f with none := f.none ++ [l] }

/-- Whether an entity meets the condition. -/
def accepts (f : NodeFilter) (e : Entity) : Bool :=
  f.all.all e.has && (f.any.isEmpty || f.any.any e.has) && !f.none.any e.has

end NodeFilter

/-- A condition on an edge and both of its ends. -/
structure HopPattern where
  source : NodeFilter
  /-- The accepted relations; none given accepts all. -/
  relations : List Relation
  target : NodeFilter
  deriving DecidableEq, Repr, Inhabited

/-- Whether a relation is among the given ones; none given accepts all. -/
def Relation.isAmong (r : Relation) (rs : List Relation) : Bool := rs.isEmpty || rs.contains r

/-- An edge with the nodes at its ends. -/
structure Hop where
  source : Node
  relation : Relation
  target : Node
  deriving DecidableEq, Repr, Inhabited

end Variability
