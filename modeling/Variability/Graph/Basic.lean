import Variability.Graph.Label
import Variability.Graph.NameTable
import Variability.Graph.Property
import Variability.Text.Name

/-!
# The property graph

The analysis collects what it learns in a directed graph. A node is an entity (a type or a member)
with a name, labels and properties; an edge relates two nodes in one of four ways. Nodes are
numbered in the order of their creation, so the number of a node is its place in the table of
entities, and edges are kept in the order of their creation as well. Every look-up below lists its
answers in creation order.

Nodes are looked up by name often, so two tables are kept beside the entities: the numbers of the
nodes by their names, and by the last segments of these. A new node is filed in both. No other
operation changes a name, so none touches the tables. That they fit the entities is part of being
a graph.

An operation that names a node which does not exist answers `none`.
-/

namespace Variability

/-- How the source of an edge is related to its target. -/
inductive Relation where
  /-- A type to one of its methods or constructors. -/
  | member
  /-- A superclass to a subclass. -/
  | extending
  /-- An interface to a type that implements or extends it. -/
  | implementing
  /-- A type to a type it holds, takes or returns. -/
  | composing
  deriving DecidableEq, Repr, Inhabited

namespace Relation

/-- All relations. -/
def all : List Relation := [member, extending, implementing, composing]

/-- The relations from a supertype to a subtype. -/
def inheritance : List Relation := [extending, implementing]

/-- The written form of a relation. -/
def text : Relation → String
  | member => "METHOD"
  | extending => "EXTENDS"
  | implementing => "IMPLEMENTS"
  | composing => "INSTANTIATE"

/-- The relation written as `s`. -/
def ofText? (s : String) : Option Relation := all.find? (·.text == s)

end Relation

/-- The number of a node. -/
abbrev NodeId := Nat

/-- A type or member: its name, labels and properties. -/
structure Entity where
  name : String
  labels : LabelSet := .empty
  properties : PropertyTable := .empty
  deriving DecidableEq, Repr, Inhabited

namespace Entity

/-- Whether the entity carries a label. -/
def has (e : Entity) (l : Label) : Bool := e.labels.has l

/-- The kind of the entity: the first kind among its labels. -/
def kind? (e : Entity) : Option EntityKind := EntityKind.all.find? (e.has ∘ .kind)

/-- Whether the entity is a class or an interface. -/
def isType (e : Entity) : Bool := e.has .classType || e.has .interfaceType

/-- Whether the entity is only known from references to it. -/
def isOutOfScope (e : Entity) : Bool := e.has .outOfScope

/-- Whether the entity takes part in a design pattern. -/
def hasPattern (e : Entity) : Bool := DesignPattern.all.any (e.has ∘ .pattern)

/-- The value of a property. -/
def property? (e : Entity) (p : Property) : Option Value := e.properties.get? p

/-- The number stored under a property. -/
def int? (e : Entity) (p : Property) : Option Int64 := (e.property? p).bind Value.int?

/-- The number stored under a property, or zero. -/
def count (e : Entity) (p : Property) : Int64 := (e.int? p).getD 0

/-- The flag stored under a property, or false. -/
def flag (e : Entity) (p : Property) : Bool := ((e.property? p).bind Value.bool?).getD false

end Entity

/-- An entity together with its number. -/
structure Node extends Entity where
  id : NodeId
  deriving DecidableEq, Repr, Inhabited

/-- An edge of the graph. -/
structure Edge where
  source : NodeId
  relation : Relation
  target : NodeId
  deriving DecidableEq, Repr, Inhabited

/-- The last segment of the name of an entity. -/
def Entity.simpleName (e : Entity) : String := Name.lastSegment e.name

/-- Entities and edges, both in the order of their creation, and the tables of the names. -/
structure Graph where
  entities : Array Entity := #[]
  edges : Array Edge := #[]
  /-- The numbers of the nodes by name. -/
  byName : NameTable := {}
  /-- The numbers of the nodes by the last segment of the name. -/
  bySimpleName : NameTable := {}
  byName_eq : byName = .ofKeys (entities.toList.map Entity.name) := by rfl
  bySimpleName_eq : bySimpleName = .ofKeys (entities.toList.map Entity.simpleName) := by rfl
  deriving DecidableEq, Repr

namespace Graph

/-- The graph without nodes. -/
def empty : Graph := {}

instance : Inhabited Graph := ⟨empty⟩

/-- Whether a node exists. -/
def contains (g : Graph) (id : NodeId) : Bool := id < g.entities.size

/-- The node with the given number. -/
def node? (g : Graph) (id : NodeId) : Option Node :=
  g.entities[id]?.map fun e => { e with id }

/-- All nodes. -/
def nodes (g : Graph) : List Node :=
  g.entities.toList.mapIdx fun id e => { e with id }

/-- The numbers of all nodes. -/
def ids (g : Graph) : List NodeId := List.range g.entities.size

/-- The numbers of the nodes with a given name. -/
def idsNamed (g : Graph) (name : String) : List NodeId := g.byName.get name

/-- The numbers of the nodes whose name has `simple` as its last segment. -/
def idsWithLastSegment (g : Graph) (simple : String) : List NodeId := g.bySimpleName.get simple

/-- The edges that meet a condition, with their numbers. A node knows its edges from the newest to
the oldest. -/
def incident (g : Graph) (p : Edge → Bool) : List (Edge × Nat) :=
  (g.edges.toList.zipIdx.filter fun e => p e.1).reverse

/-- Inserts a numbered edge before the first edge whose number is not smaller. -/
def insertEdge (e : Edge × Nat) : List (Edge × Nat) → List (Edge × Nat)
  | [] => [e]
  | f :: fs => if e.2 ≤ f.2 then e :: f :: fs else f :: insertEdge e fs

/-- Numbered edges, sorted by their numbers and without them. -/
def inOrder (es : List (Edge × Nat)) : List Edge :=
  (es.foldl (fun sorted e => insertEdge e sorted) []).map (·.1)

/-- The edges that leave a node. -/
def edgesFrom (g : Graph) (id : NodeId) : List Edge := inOrder (g.incident (·.source == id))

/-- The edges that enter a node. -/
def edgesInto (g : Graph) (id : NodeId) : List Edge := inOrder (g.incident (·.target == id))

/-- Filing a new entity last gives the table of all entities. -/
theorem file_push (k : Entity → String) (entities : Array Entity) (e : Entity) :
    (NameTable.ofKeys (entities.toList.map k)).file (k e) entities.size =
      .ofKeys ((entities.push e).toList.map k) := by
  simp [NameTable.ofKeys_concat]

/-- Adds an entity; it gets the next free number, which is filed under its name. -/
def addNode (g : Graph) (name : String) (labels : List Label) : Graph where
  entities := g.entities.push { name, labels := .ofList labels }
  edges := g.edges
  byName := g.byName.file name g.entities.size
  bySimpleName := g.bySimpleName.file (Name.lastSegment name) g.entities.size
  byName_eq := by
    rw [g.byName_eq]
    exact file_push Entity.name g.entities { name, labels := .ofList labels }
  bySimpleName_eq := by
    rw [g.bySimpleName_eq]
    exact file_push Entity.simpleName g.entities { name, labels := .ofList labels }

/-- Changing one entity keeps what does not change for it. -/
theorem map_modify {α : Type} {k : Entity → α} {f : Entity → Entity} (hf : ∀ e, k (f e) = k e)
    (entities : Array Entity) (id : NodeId) :
    (entities.modify id f).toList.map k = entities.toList.map k := by
  apply List.ext_getElem?
  intro i
  rw [List.getElem?_map, List.getElem?_map, Array.getElem?_toList, Array.getElem?_toList,
    Array.getElem?_modify]
  split
  · rw [Option.map_map]
    exact congrArg (Option.map · _) (funext hf)
  · rfl

/-- Changes the entity of one node, but not its name. -/
def update (g : Graph) (id : NodeId) (f : Entity → Entity)
    (hf : ∀ e, (f e).name = e.name) : Graph where
  entities := g.entities.modify id f
  edges := g.edges
  byName := g.byName
  bySimpleName := g.bySimpleName
  byName_eq := by rw [map_modify hf, g.byName_eq]
  bySimpleName_eq := by
    rw [map_modify fun e => congrArg Name.lastSegment (hf e), g.bySimpleName_eq]

/-- Labels a node. -/
def addLabels? (g : Graph) (id : NodeId) (ls : List Label) : Option Graph :=
  if g.contains id then
    some (g.update id (fun e => { e with labels := e.labels.insertAll ls }) fun _ => rfl)
  else none

/-- Sets a property of a node. -/
def setProperty? (g : Graph) (id : NodeId) (p : Property) (v : Value) : Option Graph :=
  if g.contains id then
    some (g.update id (fun e => { e with properties := e.properties.set p v }) fun _ => rfl)
  else none

/-- Adds an edge between two nodes, which must exist. -/
def addEdge (g : Graph) (source : NodeId) (relation : Relation) (target : NodeId) : Graph :=
  { g with edges := g.edges.push { source, relation, target } }

end Graph

end Variability
