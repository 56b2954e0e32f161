import Variability.Graph.Reachable

/-!
# The graph store

The graph lives in a store that answers one call at a time. A store may be unavailable for a
while: a schedule of outages says which of the calls still to come are refused. A refused call
changes nothing but the schedule. A store without outages is the plain graph.

`StoreM` is the type of programs made of store calls. A program that fails keeps what its earlier
calls have written.
-/

namespace Variability

/-- Why a store call failed. -/
inductive StoreError where
  /-- The store cannot answer at the moment; the call may be repeated. -/
  | unavailable (why : String)
  /-- The call names a node that does not exist. -/
  | unknownNode (id : NodeId)
  deriving DecidableEq, Repr, Inhabited

namespace StoreError

/-- The written form of a failure. -/
def message : StoreError → String
  | unavailable why => "graph store unavailable: " ++ why
  | unknownNode id => "unknown node #" ++ toString id

/-- Whether repeating the call can help. -/
def isTransient : StoreError → Bool
  | unavailable _ => true
  | unknownNode _ => false

end StoreError

/-- A stretch of refused calls: `after` calls pass, then `count` calls are refused. -/
structure Outage where
  after : Nat
  count : Nat
  why : String
  deriving DecidableEq, Repr, Inhabited

/-- Lets one call pass through a schedule of outages, taken one after the other: answers why the
call is refused, if it is, and what remains of the schedule. -/
def Outage.gate : List Outage → Option String × List Outage
  | [] => (none, [])
  | o :: os =>
    match o.count with
    | 0 => gate os
    | count + 1 =>
      match o.after with
      | 0 => (some o.why, { o with count } :: os)
      | after + 1 => (none, { o with after } :: os)

/-- A graph, and the outages that calls on it will meet. -/
structure Store where
  graph : Graph := .empty
  outages : List Outage := []
  deriving DecidableEq, Repr, Inhabited

/-- Programs of store calls. -/
abbrev StoreM := ExceptT StoreError (StateM Store)

namespace Store

/-- One call: refused during an outage, otherwise `f` on the graph. -/
def call {α : Type} (f : Graph → Except StoreError (α × Graph)) : StoreM α := fun s =>
  match Outage.gate s.outages with
  | (some why, outages) => (.error (.unavailable why), { s with outages })
  | (none, outages) =>
    match f s.graph with
    | .ok (a, graph) => (.ok a, { graph, outages })
    | .error e => (.error e, { s with outages })

/-- A call that changes nothing. -/
def read {α : Type} (f : Graph → Except StoreError α) : StoreM α :=
  call fun g => (f g).map (·, g)

/-- A call that changes the graph, unless it names an unknown node. -/
def write (id : NodeId) (f : Graph → Option Graph) : StoreM Unit :=
  call fun g =>
    match f g with
    | some g' => .ok ((), g')
    | none => .error (.unknownNode id)

/-- Answers `a` if the node exists. -/
def known {α : Type} (g : Graph) (id : NodeId) (a : α) : Except StoreError α :=
  if g.contains id then .ok a else .error (.unknownNode id)

/-- Creates a node and answers its number. -/
def createNode (name : String) (labels : List Label) : StoreM NodeId :=
  call fun g => .ok (g.entities.size, g.addNode name labels)

/-- The node with a given number. -/
def node (id : NodeId) : StoreM Node :=
  read fun g =>
    match g.node? id with
    | some n => .ok n
    | none => .error (.unknownNode id)

/-- The numbers of all nodes. -/
def nodeIds : StoreM (List NodeId) := read fun g => .ok g.ids

/-- The numbers of the nodes with a name. -/
def idsNamed (name : String) : StoreM (List NodeId) := read fun g => .ok (g.idsNamed name)

/-- The numbers of the nodes whose name ends in a segment. -/
def idsWithLastSegment (simple : String) : StoreM (List NodeId) :=
  read fun g => .ok (g.idsWithLastSegment simple)

/-- Labels a node. -/
def addLabels (id : NodeId) (ls : List Label) : StoreM Unit := write id (·.addLabels? id ls)

/-- Sets a property of a node. -/
def setProperty (id : NodeId) (p : Property) (v : Value) : StoreM Unit :=
  write id (·.setProperty? id p v)

/-- Adds an edge. When both ends are unknown the source is reported. -/
def createEdge (source : NodeId) (relation : Relation) (target : NodeId) : StoreM Unit :=
  call fun g => do
    known g source ()
    known g target ()
    .ok ((), g.addEdge source relation target)

/-- The edges that leave a node. -/
def edgesFrom (id : NodeId) : StoreM (List Edge) := read fun g => known g id (g.edgesFrom id)

/-- The edges that enter a node. -/
def edgesInto (id : NodeId) : StoreM (List Edge) := read fun g => known g id (g.edgesInto id)

/-- All edges. -/
def edges : StoreM (List Edge) := read fun g => .ok g.edges.toList

/-- The nodes reachable from a node along one relation. -/
def reachable (start : NodeId) (relation : Relation) : StoreM (List NodeId) :=
  read fun g => known g start (g.reachable relation start)

/-- Removes every node and edge; numbering starts again. -/
def clear : StoreM Unit := call fun _ => .ok ((), .empty)

end Store

end Variability
