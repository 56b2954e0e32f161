import Variability.Store.Retry
import Variability.Graph.Pattern

/-!
# Sessions

A session works on a stored graph under a retry policy. Its operations are what the sweeps, the
metrics and the reports are written in. Every operation is a short program of store calls, named
in the error it may end with; what it answers and what it leaves in the store depends on no other
part of the state.
-/

namespace Variability

/-- Programs that work on a stored graph under a retry policy. -/
abbrev Session := ReaderT RetryPolicy (ExceptT GraphError (StateM Store))

/-- How many distinct neighbours of a node share a name. -/
structure NameCount where
  name : String
  number : Nat
  deriving DecidableEq, Repr, Inhabited

/-- The size of a graph. -/
structure GraphSummary where
  nodes : Nat := 0
  relationships : Nat := 0
  inheritance : Nat := 0
  compositions : Nat := 0
  deriving DecidableEq, Repr, Inhabited

/-- The written form of a graph's size. -/
def GraphSummary.text (s : GraphSummary) : String :=
  toString s.nodes ++ " nodes, " ++ toString s.relationships ++ " relationships (" ++
    toString s.inheritance ++ " inheritance, excluding implicit java.lang.Object supertypes, " ++
    toString s.compositions ++ " composition)"

/-- Counts one more occurrence of a name in a list of counts kept by increasing name. -/
def NameCount.bump (name : String) : List NameCount → List NameCount
  | [] => [{ name, number := 1 }]
  | c :: cs =>
    if name < c.name then { name, number := 1 } :: c :: cs
    else if name = c.name then { c with number := c.number + 1 } :: cs
    else c :: bump name cs

/-- Counts how often each name occurs, the names in increasing order. -/
def NameCount.tally (names : List String) : List NameCount :=
  names.foldl (fun counts name => bump name counts) []

namespace Session

/-- Runs a program of store calls as one operation. -/
def perform {α : Type} (operation : Operation) (calls : StoreM α) : Session α :=
  fun policy => policy.run operation calls

/-- The first of `ids` whose node meets a condition. Nodes after it are not read. -/
def firstNode (p : Node → Bool) : List NodeId → StoreM (Option Node)
  | [] => pure none
  | id :: ids => do
    let n ← Store.node id
    if p n then pure (some n) else firstNode p ids

/-- Creates a node, whether or not others have its name. -/
def createNode (name : String) (kind : EntityKind) (labels : List Label) : Session Node :=
  perform .createNode do
    let id ← Store.createNode name (.kind kind :: labels)
    Store.node id

/-- The node with the given name and kind. A missing node is created with the labels `onCreate`;
one that is there gets the labels `onMatch`. -/
def getOrCreateNode (name : String) (kind : EntityKind) (onCreate onMatch : List Label) :
    Session Node :=
  perform .getOrCreateNode do
    match ← firstNode (·.has (.kind kind)) (← Store.idsNamed name) with
    | some n =>
      if onMatch.isEmpty then pure n
      else
        Store.addLabels n.id onMatch
        Store.node n.id
    | none =>
      let id ← Store.createNode name (.kind kind :: onCreate)
      Store.node id

/-- The node with a given number. -/
def node (id : NodeId) : Session Node :=
  perform .node (Store.node id)

/-- All nodes, in creation order. -/
def nodes : Session (List Node) :=
  perform .nodes do (← Store.nodeIds).mapM Store.node

/-- The nodes that meet a condition, in creation order. -/
def nodesMatching (f : NodeFilter) : Session (List Node) := do
  return (← nodes).filter fun n => f.accepts n.toEntity

/-- The first node with a name. -/
def findByName (name : String) : Session (Option Node) :=
  perform .findByName do
    match ← Store.idsNamed name with
    | [] => pure none
    | id :: _ => some <$> Store.node id

/-- The first node with a name that carries all the given labels. -/
def findByLabelsAndName (labels : List Label) (name : String) : Session (Option Node) :=
  perform .findByLabelsAndName do
    firstNode (fun n => labels.all n.has) (← Store.idsNamed name)

/-- Whether a node is a type in a package, directly or deeper, with the given simple name. -/
def isInPackage (simple package : String) (n : Node) : Bool :=
  n.isType && Text.startsWith n.name (package ++ ".") && Text.endsWith n.name ("." ++ simple)

/-- The first type whose name starts with `package.` and ends with `.simple`. -/
def findInPackage (simple package : String) : Session (Option Node) :=
  perform .findInPackage do
    firstNode (isInPackage simple package)
      (← Store.idsWithLastSegment (Name.lastSegment simple))

/-- Labels a node. -/
def addLabel (id : NodeId) (label : Label) : Session Unit :=
  perform .addLabel (Store.addLabels id [label])

/-- Sets a property of a node. -/
def setProperty (id : NodeId) (p : Property) (v : Value) : Session Unit :=
  perform .setProperty (Store.setProperty id p v)

/-- The value of a property of a node. -/
def property (id : NodeId) (p : Property) : Session (Option Value) := do
  return (← node id).property? p

/-- Adds an edge. -/
def link (source target : NodeId) (relation : Relation) : Session Unit :=
  perform .link (Store.createEdge source relation target)

/-- Whether some edge leads from one node directly to another. -/
def relatedTo (source target : NodeId) : Session Bool :=
  perform .relatedTo do
    return (← Store.edgesFrom source).any (·.target == target)

/-- The ends, picked by `pick`, of those edges whose relation is among `relations`, each end once
and in the order of its first edge. -/
def endsOf (pick : Edge → NodeId) (relations : List Relation) (edges : List Edge) :
    List NodeId :=
  ((edges.filter (·.relation.isAmong relations)).map pick).eraseDups

/-- The nodes to which edges of the given relations lead, each once. -/
def children (id : NodeId) (relations : List Relation) : Session (List Node) :=
  perform .children do
    (endsOf (·.target) relations (← Store.edgesFrom id)).mapM Store.node

/-- The nodes from which edges of the given relations come, each once. -/
def parents (id : NodeId) (relations : List Relation) : Session (List Node) :=
  perform .parents do
    (endsOf (·.source) relations (← Store.edgesInto id)).mapM Store.node

/-- The number of classes that directly extend or implement a node. -/
def variantCount (id : NodeId) : Session Nat := do
  return (← children id Relation.inheritance).countP (·.has .classType)

/-- The sources of edges of one relation into the nodes named `name`, as far as they carry
`label`. A source counts once for each of its edges. -/
def supertypesOf (name : String) (relation : Relation) (label : Label) : Session (List Node) :=
  perform .supertypesOf do
    let found ← (← Store.idsNamed name).mapM fun id => do
      ((← Store.edgesInto id).filter (·.relation == relation)).mapM fun e => Store.node e.source
    return found.flatten.filter (·.has label)

/-- The class that the type named `name` extends. -/
def superclassOf (name : String) : Session (Option Node) := do
  return (← supertypesOf name .extending .classType).head?

/-- The interfaces that the type named `name` implements. -/
def interfacesOf (name : String) : Session (List Node) :=
  supertypesOf name .implementing .interfaceType

/-- The node with a given number, read from the store only if it is not among the nodes already
read. -/
def lookUp (known : List Node) (id : NodeId) : StoreM (Node × List Node) :=
  match known.find? (·.id == id) with
  | some n => pure (n, known)
  | none => do
    let n ← Store.node id
    pure (n, n :: known)

/-- The edges of a list that match a pattern, with their ends. Each end is read at most once, and
the target only if the source fits. -/
def hops (pattern : HopPattern) : List Node → List Edge → StoreM (List Hop)
  | _, [] => pure []
  | known, e :: es =>
    if e.relation.isAmong pattern.relations then do
      let (source, known) ← lookUp known e.source
      if pattern.source.accepts source.toEntity then
        let (target, known) ← lookUp known e.target
        if pattern.target.accepts target.toEntity then
          let rest ← hops pattern known es
          pure ({ source, relation := e.relation, target } :: rest)
        else hops pattern known es
      else hops pattern known es
    else hops pattern known es

/-- Every edge that matches a pattern, in creation order. -/
def runQuery (pattern : HopPattern) : Session (List Hop) :=
  perform .runQuery do hops pattern [] (← Store.edges)

/-- How many distinct neighbours with a label share each name, by increasing name. -/
def countSameName (id : NodeId) (label : Label) : Session (List NameCount) := do
  return NameCount.tally (((← children id []).filter (·.has label)).map (·.name))

/-- The nodes reachable from a node along one relation. -/
def reachable (start : NodeId) (relation : Relation) : Session (List NodeId) :=
  perform .reachable (Store.reachable start relation)

/-- The size of the graph. -/
def summary : Session GraphSummary :=
  perform .summary do
    let edges ← Store.edges
    let ids ← Store.nodeIds
    return {
      nodes := ids.length
      relationships := edges.length
      inheritance := edges.countP (Relation.inheritance.contains ·.relation)
      compositions := edges.countP (·.relation == .composing) }

/-- Removes every node and edge. -/
def clear : Session Unit :=
  perform .clear Store.clear

end Session

end Variability
