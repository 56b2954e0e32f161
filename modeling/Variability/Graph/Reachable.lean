import Variability.Graph.Basic

/-!
# Reachability

The nodes to which edges of one relation lead from a start node, in the order in which a
breadth-first search meets them: the start first, then its successors, the successors of the
first of them, and so on. The successors of a node are taken from the newest edge to the oldest.

`Graph.Reaches` says the same as a relation, without order.
-/

namespace Variability.Graph

/-- The targets of the edges of one relation that leave a node, newest edge first. -/
def successors (g : Graph) (relation : Relation) (id : NodeId) : List NodeId :=
  ((g.edgesFrom id).filter (·.relation == relation)).reverse.map (·.target)

/-- Appends to `met` those of `ids` that it lacks, each once. -/
def meet (met : List NodeId) : List NodeId → List NodeId
  | [] => met
  | id :: ids => if id ∈ met then meet met ids else meet (met ++ [id]) ids

/-- Breadth-first search: `met` holds the nodes met so far, of which the first `done` have had
their successors looked at. Each step looks at one node more, so as many steps as there are nodes
are enough. -/
def search (next : NodeId → List NodeId) : Nat → Nat → List NodeId → List NodeId
  | 0, _, met => met
  | steps + 1, done, met =>
    match met[done]? with
    | none => met
    | some id => search next steps (done + 1) (meet met (next id))

/-- The nodes reachable from `start` along one relation, `start` included, in breadth-first
order. -/
def reachable (g : Graph) (relation : Relation) (start : NodeId) : List NodeId :=
  search (g.successors relation) g.entities.size 0 [start]

/-- There is an edge of the given relation between two nodes. -/
def Step (g : Graph) (relation : Relation) (source target : NodeId) : Prop :=
  { source, relation, target : Edge } ∈ g.edges

/-- A path of zero or more edges of one relation. -/
inductive Reaches (g : Graph) (relation : Relation) (start : NodeId) : NodeId → Prop where
  | start : Reaches g relation start start
  | step {mid target : NodeId} :
      Reaches g relation start mid → Step g relation mid target → Reaches g relation start target

end Variability.Graph
