import Variability.Store.Session
import Variability.Variation.Statistics
import Variability.Report.Json

/-!
# The visualization document

What a viewer needs of the graph: the variation points and variants, all types in scope, and the
links between them. Entries are listed in creation order. The document and the statistics are
written as JSON.
-/

namespace Variability

/-- A node of the document with its metrics; a metric that is not set is left out. -/
structure DocumentNode where
  types : List String
  name : String
  methodPoints : Option Int64 := none
  constructorPoints : Option Int64 := none
  methodVariants : Option Int64 := none
  constructorVariants : Option Int64 := none
  publicMethods : Option Int64 := none
  publicConstructors : Option Int64 := none
  allMethods : Option Int64 := none
  methods : List NameCount := []
  constructors : List NameCount := []
  /-- The classes among the neighbours. -/
  attributes : List NameCount := []
  compositions : Option Int64 := none
  /-- The interfaces among the neighbours; only kept for the list of all types. -/
  interfaceAttributes : Option (List NameCount) := none
  deriving DecidableEq, Repr, Inhabited

/-- A link of the document, by the names of its ends. -/
structure DocumentLink where
  source : String
  target : String
  kind : String
  deriving DecidableEq, Repr, Inhabited

/-- The visualization document. -/
structure Document where
  nodes : List DocumentNode := []
  links : List DocumentLink := []
  allNodes : List DocumentNode := []
  compositionLinks : List DocumentLink := []
  allLinks : List DocumentLink := []
  deriving DecidableEq, Repr, Inhabited

namespace Document

/-- The entry of a node. -/
def entry (n : Node) (withInterfaces : Bool) : Session DocumentNode := do
  let interfaces ←
    if withInterfaces then some <$> Session.countSameName n.id .interfaceType else pure none
  let methods ← Session.countSameName n.id .method
  let constructors ← Session.countSameName n.id .constructor
  let attributes ← Session.countSameName n.id .classType
  return {
    types := n.labels.toList.map (·.text)
    name := n.name
    methodPoints := n.int? .methodPoints
    constructorPoints := n.int? .constructorPoints
    methodVariants := n.int? .methodVariants
    constructorVariants := n.int? .constructorVariants
    publicMethods := n.int? .publicMethods
    publicConstructors := n.int? .publicConstructors
    allMethods := n.int? .allMethods
    methods
    constructors
    attributes
    compositions := n.int? .compositions
    interfaceAttributes := interfaces }

/-- Whether a node is listed among the varying ones. -/
def varies (e : Entity) : Bool :=
  e.has .variationPoint || e.has .variant || e.has .methodLevelPoint

/-- The entries of one node: among the varying nodes, and among all types. -/
def entries (n : Node) : Session (Option DocumentNode × Option DocumentNode) :=
  if n.isOutOfScope then pure (none, none)
  else do
    let varying ← if varies n.toEntity then some <$> entry n false else pure none
    let type ← if n.isType then some <$> entry n true else pure none
    return (varying, type)

/-- The nodes in scope. -/
def inScope : NodeFilter := NodeFilter.anyNode.without .outOfScope

/-- From a variation point in scope to what inherits from it. -/
def linkPattern : HopPattern :=
  ⟨(NodeFilter.labelled .variationPoint).without .outOfScope, Relation.inheritance, inScope⟩

/-- From a class in scope to what it is composed of. -/
def compositionPattern : HopPattern :=
  ⟨(NodeFilter.labelled .classType).without .outOfScope, [.composing], inScope⟩

/-- Any inheritance or composition in scope. -/
def allPattern : HopPattern := ⟨inScope, [.extending, .implementing, .composing], inScope⟩

/-- The links that match a pattern. -/
def linksOf (pattern : HopPattern) : Session (List DocumentLink) := do
  return (← Session.runQuery pattern).map fun h =>
    { source := h.source.name, target := h.target.name, kind := h.relation.text }

/-- The document of the graph as it is. -/
def build : Session Document := do
  let listed ← (← Session.nodes).mapM entries
  let links ← linksOf linkPattern
  let compositionLinks ← linksOf compositionPattern
  let allLinks ← linksOf allPattern
  return {
    nodes := listed.filterMap (·.1)
    links
    allNodes := listed.filterMap (·.2)
    compositionLinks
    allLinks }

end Document

/-! ### As JSON -/

/-- A count as JSON. -/
def NameCount.toJson (c : NameCount) : Json :=
  .obj [("name", .str c.name), ("number", .nat c.number)]

/-- A field that is left out when it has no value. -/
def Json.field? {α : Type} (name : String) (f : α → Json) (a : Option α) :
    List (String × Json) :=
  a.toList.map fun a => (name, f a)

/-- A node as JSON. -/
def DocumentNode.toJson (n : DocumentNode) : Json :=
  .obj <|
    [("types", .ofList .str n.types), ("name", .str n.name)] ++
    Json.field? "methodVPs" .int64 n.methodPoints ++
    Json.field? "constructorVPs" .int64 n.constructorPoints ++
    Json.field? "methodVariants" .int64 n.methodVariants ++
    Json.field? "constructorVariants" .int64 n.constructorVariants ++
    Json.field? "publicMethods" .int64 n.publicMethods ++
    Json.field? "publicConstructors" .int64 n.publicConstructors ++
    Json.field? "allMethods" .int64 n.allMethods ++
    [("methods", .ofList NameCount.toJson n.methods),
      ("constructors", .ofList NameCount.toJson n.constructors),
      ("attributes", .ofList NameCount.toJson n.attributes)] ++
    Json.field? "nbCompositions" .int64 n.compositions ++
    Json.field? "interfaceAttributes" (.ofList NameCount.toJson) n.interfaceAttributes

/-- A link as JSON. -/
def DocumentLink.toJson (l : DocumentLink) : Json :=
  .obj [("source", .str l.source), ("target", .str l.target), ("type", .str l.kind)]

/-- The document as JSON. -/
def Document.toJson (d : Document) : Json :=
  .obj [("nodes", .ofList DocumentNode.toJson d.nodes),
    ("links", .ofList DocumentLink.toJson d.links),
    ("allnodes", .ofList DocumentNode.toJson d.allNodes),
    ("linkscompose", .ofList DocumentLink.toJson d.compositionLinks),
    ("alllinks", .ofList DocumentLink.toJson d.allLinks)]

/-- The statistics as JSON. -/
def Statistics.toJson (s : Statistics) : Json :=
  .obj [("VPs", .int64 s.points),
    ("methodsVPs", .int64 s.methodsPoints),
    ("constructorsVPs", .int64 s.constructorsPoints),
    ("methodLevelVPs", .int64 s.methodLevelPoints),
    ("classLevelVPs", .int64 s.classLevelPoints),
    ("variants", .int64 s.variants),
    ("methodsVariants", .int64 s.methodsVariants),
    ("constructorsVariants", .int64 s.constructorsVariants),
    ("methodLevelVariants", .int64 s.methodLevelVariants),
    ("classLevelVariants", .int64 s.classLevelVariants),
    ("publicMethods", .int64 s.publicMethods),
    ("allMethods", .int64 s.allMethods),
    ("publicsConstructors", .int64 s.publicConstructors),
    ("nbCompositionClasses", .int64 s.compositionClasses)]

/-- The size of a graph as JSON. -/
def GraphSummary.toJson (s : GraphSummary) : Json :=
  .obj [("nodes", .nat s.nodes), ("relationships", .nat s.relationships),
    ("inheritance", .nat s.inheritance), ("compositions", .nat s.compositions)]

end Variability
