import Variability.Proofs.Available

/-!
# Queries on an available store

What the reading operations of a session answer, as functions of the graph. Each operation reads
one node after the other; on a closed graph none of these reads fails, and together they answer a
plain question about the graph.

## Main results

* `Session.yields_children`, `Session.yields_variantCount`, `Session.yields_countSameName`: the
  neighbours of a node and their counts.
* `Session.yields_runQuery`: a query answers the edges that fit its pattern, in order. The nodes
  kept from earlier edges are the nodes of the graph.
* `Session.yields_findByName` and its companions: the first node that fits.
* `Session.yields_getOrCreateNode_of_some`, `Session.yields_getOrCreateNode_of_none`: the node
  that is there, or a new one.
-/

namespace Variability

/-- Whether an entity is a type in a package, directly or deeper, with the given simple name. -/
def Entity.isInPackage (e : Entity) (simple package : String) : Bool :=
  e.isType && Text.startsWith e.name (package ++ ".") && Text.endsWith e.name ("." ++ simple)

namespace Graph

/-! ### Edges -/

/-- A list from which repetitions have been taken has none. -/
theorem nodup_eraseDups (ids : List NodeId) : ids.eraseDups.Nodup := by
  -- Each step removes the head from the rest, so the induction is on the length.
  induction hn : ids.length using Nat.strongRecOn generalizing ids with
  | ind n ih =>
      cases ids with
      | nil => simp
      | cons id ids =>
          rw [List.eraseDups_cons, List.nodup_cons]
          constructor
          · simp
          · refine ih _ ?_ _ rfl
            have hle := List.length_filter_le (fun b => !b == id) ids
            simp only [List.length_cons] at hn
            omega

/-- The nodes to which edges of the given relations lead, each once and in edge order. -/
def targets (g : Graph) (relations : List Relation) (id : NodeId) : List NodeId :=
  Session.endsOf (·.target) relations (g.edgesFrom id)

/-- No target is listed twice, however many edges lead to it. -/
theorem nodup_targets (g : Graph) (relations : List Relation) (id : NodeId) :
    (g.targets relations id).Nodup :=
  nodup_eraseDups _

/-- A node is a target exactly when an edge of an accepted relation leads to it. -/
theorem mem_targets {g : Graph} {relations : List Relation} {id m : NodeId} :
    m ∈ g.targets relations id ↔ ∃ r, r.isAmong relations = true ∧ g.Step r id m := by
  simp only [targets, Session.endsOf, edgesFrom_eq, List.mem_eraseDups, List.mem_map,
    List.mem_filter, Array.mem_toList_iff, beq_iff_eq, Step]
  constructor
  · rintro ⟨⟨source, relation, target⟩, ⟨⟨he, rfl⟩, hr⟩, rfl⟩
    exact ⟨relation, hr, he⟩
  · rintro ⟨r, hr, he⟩
    exact ⟨⟨id, r, m⟩, ⟨⟨he, rfl⟩, hr⟩, rfl⟩

/-- An edge of a closed graph leads from a node to a node. -/
theorem Closed.step {g : Graph} (hg : g.Closed) {r : Relation} {s t : NodeId}
    (h : g.Step r s t) : s < g.size ∧ t < g.size :=
  hg _ h

/-- `m` directly extends or implements `n`. -/
def Inherits (g : Graph) (n m : NodeId) : Prop :=
  ∃ r ∈ Relation.inheritance, g.Step r n m

theorem mem_targets_inheritance {g : Graph} {n m : NodeId} :
    m ∈ g.targets Relation.inheritance n ↔ g.Inherits n m := by
  rw [mem_targets, Inherits]
  simp [Relation.isAmong, Relation.inheritance]

/-- Targets in a closed graph exist. -/
theorem Closed.lt_of_mem_targets {g : Graph} (hg : g.Closed) {relations : List Relation}
    {id m : NodeId} (h : m ∈ g.targets relations id) : m < g.size := by
  obtain ⟨r, -, hstep⟩ := mem_targets.mp h
  exact (hg.step hstep).2

/-- The number of classes that directly extend or implement a node. -/
def variantCount (g : Graph) (id : NodeId) : Nat :=
  (g.targets Relation.inheritance id).countP fun m => (g.entity m).has .classType

/-- The number of neighbours of a node that carry all the given labels. -/
def memberCount (g : Graph) (id : NodeId) (labels : List Label) : Nat :=
  (g.targets [] id).countP fun m => labels.all (g.entity m).has

/-- The names of the neighbours of a node that carry a label, with repetitions. -/
def memberNames (g : Graph) (id : NodeId) (l : Label) : List String :=
  ((g.targets [] id).filter fun m => (g.entity m).has l).map fun m => (g.entity m).name

/-! ### Hops -/

/-- An edge with the nodes at its ends. -/
def hopAt (g : Graph) (e : Edge) : Hop :=
  { source := g.nodeAt e.source, relation := e.relation, target := g.nodeAt e.target }

/-- Whether an edge fits a pattern. -/
def fits (g : Graph) (pattern : HopPattern) (e : Edge) : Bool :=
  e.relation.isAmong pattern.relations && pattern.source.accepts (g.entity e.source) &&
    pattern.target.accepts (g.entity e.target)

/-- The edges that fit a pattern, in creation order. -/
def edgesOf (g : Graph) (pattern : HopPattern) : List Edge :=
  g.edges.toList.filter (g.fits pattern)

/-- An edge of a pattern is an edge of an accepted relation between accepted nodes. -/
theorem mem_edgesOf {g : Graph} {pattern : HopPattern} {e : Edge} :
    e ∈ g.edgesOf pattern ↔ g.Step e.relation e.source e.target ∧
      e.relation.isAmong pattern.relations = true ∧
      pattern.source.accepts (g.entity e.source) = true ∧
      pattern.target.accepts (g.entity e.target) = true := by
  simp only [edgesOf, List.mem_filter, Array.mem_toList_iff, fits, Bool.and_eq_true, Step,
    and_assoc]

/-- The ends of the edges of a pattern exist. -/
theorem Closed.lt_of_mem_edgesOf {g : Graph} (hg : g.Closed) {pattern : HopPattern} {e : Edge}
    (he : e ∈ g.edgesOf pattern) : e.source < g.size ∧ e.target < g.size :=
  hg.step (mem_edgesOf.mp he).1

/-- The edges that fit a pattern, with their ends, in creation order. -/
def hopsOf (g : Graph) (pattern : HopPattern) : List Hop := (g.edgesOf pattern).map g.hopAt

/-- The sources of edges of one relation into the nodes with a name, as far as they carry a
label. -/
def supertypesOf (g : Graph) (name : String) (relation : Relation) (l : Label) : List Node :=
  (((g.idsWhere fun e => e.name == name).map fun id =>
    ((g.edgesInto id).filter (·.relation == relation)).map fun e =>
      g.nodeAt e.source).flatten).filter (·.has l)

/-! ### First nodes -/

/-- The first node that meets a condition. -/
def firstWhere (g : Graph) (c : Entity → Bool) : Option Node :=
  ((g.idsWhere c).map g.nodeAt).head?

/-- The first node that meets a condition exists and meets it. -/
theorem firstWhere_eq_some {g : Graph} {c : Entity → Bool} {n : Node}
    (h : g.firstWhere c = some n) :
    n.id < g.size ∧ n = g.nodeAt n.id ∧ c (g.entity n.id) = true := by
  have hmem := List.mem_of_head? h
  obtain ⟨id, hid, rfl⟩ := List.mem_map.mp hmem
  obtain ⟨hlt, hc⟩ := mem_idsWhere.mp hid
  exact ⟨hlt, rfl, hc⟩

/-- The first node that meets a condition is the one that meets it while none before does. -/
theorem firstWhere_eq_some_iff {g : Graph} {c : Entity → Bool} {n : Node} :
    g.firstWhere c = some n ↔ n.id < g.size ∧ n = g.nodeAt n.id ∧ c (g.entity n.id) = true ∧
      ∀ m < n.id, c (g.entity m) = false := by
  rw [firstWhere, idsWhere, List.head?_map, List.head?_filter, Option.map_eq_some_iff]
  simp only [List.find?_range_eq_some, List.mem_range, Bool.not_eq_true']
  constructor
  · rintro ⟨id, ⟨hc, hlt, hfirst⟩, rfl⟩
    exact ⟨hlt, rfl, hc, hfirst⟩
  · rintro ⟨hlt, hn, hc, hfirst⟩
    exact ⟨n.id, ⟨hc, hlt, hfirst⟩, hn.symm⟩

/-- There is no first node only if none meets the condition. -/
theorem firstWhere_eq_none {g : Graph} {c : Entity → Bool} (h : g.firstWhere c = none)
    {id : NodeId} (hid : id < g.size) : c (g.entity id) = false := by
  rw [firstWhere, List.head?_eq_none_iff, List.map_eq_nil_iff] at h
  by_cases hc : c (g.entity id) = true
  · have hmem : id ∈ g.idsWhere c := mem_idsWhere.mpr ⟨hid, hc⟩
    rw [h] at hmem
    exact absurd hmem List.not_mem_nil
  · simpa using hc

/-- A table of the entities by a text lists the nodes that have the text. -/
theorem get_ofKeys_eq (g : Graph) (k : Entity → String) (key : String) :
    (NameTable.ofKeys (g.entities.toList.map k)).get key = g.idsWhere fun e => k e == key := by
  rw [NameTable.get_ofKeys, List.length_map]
  refine List.filter_congr fun id hid => ?_
  have hlt : id < g.size := List.mem_range.mp hid
  rw [List.getElem?_map, Array.getElem?_toList, getElem?_of_lt hlt]
  simp

/-- The numbers with a name are those of the nodes that have it. -/
theorem idsNamed_eq (g : Graph) (name : String) :
    g.idsNamed name = g.idsWhere fun e => e.name == name := by
  rw [idsNamed, g.byName_eq, get_ofKeys_eq]

/-- The numbers with a last segment are those of the nodes whose name ends in it. -/
theorem idsWithLastSegment_eq (g : Graph) (simple : String) :
    g.idsWithLastSegment simple = g.idsWhere fun e => Name.lastSegment e.name == simple := by
  rw [idsWithLastSegment, g.bySimpleName_eq, get_ofKeys_eq]
  rfl

/-- Selecting twice is selecting by both conditions. -/
theorem filter_idsWhere (g : Graph) (c d : Entity → Bool) :
    (g.idsWhere c).filter (fun id => d (g.entity id)) = g.idsWhere fun e => c e && d e := by
  rw [idsWhere, idsWhere, List.filter_filter]
  exact List.filter_congr fun id _ => Bool.and_comm _ _

/-- The first of the selected nodes that meets another condition. -/
theorem find?_idsWhere (g : Graph) (c d : Entity → Bool) :
    ((g.idsWhere c).map g.nodeAt).find? (fun n => d n.toEntity) =
      g.firstWhere fun e => c e && d e := by
  rw [firstWhere, ← filter_idsWhere, ← List.head?_filter, List.filter_map]
  rfl

end Graph

/-! ### Reading nodes -/

namespace Session

variable {g : Graph}

/-- Reading nodes that exist, in order. -/
theorem gives_mapM_node {ids : List NodeId} (h : ∀ id ∈ ids, id < g.size) :
    Store.Gives (ids.mapM Store.node) g (ids.map g.nodeAt) g :=
  Store.Gives.mapM fun id hid => Store.gives_node (h id hid)

/-- All nodes. -/
theorem yields_nodes : Yields nodes g ((List.range g.size).map g.nodeAt) g := by
  have hids : Store.Gives Store.nodeIds g (List.range g.size) g := Store.Gives.read rfl
  exact Yields.perform (hids.bind (gives_mapM_node fun id hid => List.mem_range.mp hid))

/-- The nodes that meet a condition. -/
theorem yields_nodesMatching (f : NodeFilter) :
    Yields (nodesMatching f) g ((g.idsWhere f.accepts).map g.nodeAt) g := by
  have h := (yields_nodes (g := g)).bind_pure
    fun ns => ns.filter fun n => f.accepts n.toEntity
  rw [← Graph.nodes_eq, Graph.filter_nodes] at h
  exact h

/-- The nodes below a node. -/
theorem yields_children (hg : g.Closed) {id : NodeId} (h : id < g.size)
    (relations : List Relation) :
    Yields (children id relations) g ((g.targets relations id).map g.nodeAt) g := by
  have hedges : Store.Gives (Store.edgesFrom id) g (g.edgesFrom id) g :=
    Store.Gives.read (Store.known_of_lt h _)
  exact Yields.perform
    (hedges.bind (gives_mapM_node fun m hm => hg.lt_of_mem_targets hm))

/-- The number of direct variants of a node. -/
theorem yields_variantCount (hg : g.Closed) {id : NodeId} (h : id < g.size) :
    Yields (variantCount id) g (g.variantCount id) g := by
  have hcount := (yields_children hg h Relation.inheritance).bind_pure
    fun ns => ns.countP (·.has .classType)
  rw [List.countP_map] at hcount
  exact hcount

/-- How many neighbours with a label share each name. -/
theorem yields_countSameName (hg : g.Closed) {id : NodeId} (h : id < g.size) (l : Label) :
    Yields (countSameName id l) g (NameCount.tally (g.memberNames id l)) g := by
  have hcount := (yields_children hg h []).bind_pure
    fun ns => NameCount.tally ((ns.filter (·.has l)).map (·.name))
  rw [List.filter_map, List.map_map] at hcount
  exact hcount

/-- Whether an edge leads from one node to another. -/
theorem yields_relatedTo {source : NodeId} (h : source < g.size) (target : NodeId) :
    Yields (relatedTo source target) g ((g.edgesFrom source).any (·.target == target)) g := by
  have hedges : Store.Gives (Store.edgesFrom source) g (g.edgesFrom source) g :=
    Store.Gives.read (Store.known_of_lt h _)
  exact Yields.perform (hedges.bind (Store.Gives.pure _ _))

/-- The nodes reachable from a node. -/
theorem yields_reachable {start : NodeId} (h : start < g.size) (relation : Relation) :
    Yields (reachable start relation) g (g.reachable relation start) g :=
  Yields.perform (Store.Gives.read (Store.known_of_lt h _))

/-! ### Queries over edges -/

/-- Looking a node up answers the node of the graph, whether it was kept or is read now, and
keeps only nodes of the graph. -/
theorem gives_lookUp {known : List Node} (hknown : ∀ n ∈ known, n = g.nodeAt n.id)
    {id : NodeId} (h : id < g.size) :
    ∃ known', Store.Gives (lookUp known id) g (g.nodeAt id, known') g ∧
      ∀ n ∈ known', n = g.nodeAt n.id := by
  unfold lookUp
  cases hfind : known.find? (·.id == id) with
  | some n =>
      have hn : n = g.nodeAt n.id := hknown n (List.mem_of_find?_eq_some hfind)
      have hid : n.id = id := by simpa using List.find?_some hfind
      rw [hid] at hn
      exact ⟨known, hn ▸ Store.Gives.pure _ _, hknown⟩
  | none =>
      refine ⟨g.nodeAt id :: known, (Store.gives_node h).bind (Store.Gives.pure _ _), ?_⟩
      intro n hn
      rcases List.mem_cons.mp hn with rfl | hn
      · rfl
      · exact hknown n hn

/-- The loop of a query, over any edges whose ends exist and with any kept nodes of the graph. -/
theorem gives_hops (pattern : HopPattern) {known : List Node}
    (hknown : ∀ n ∈ known, n = g.nodeAt n.id) {es : List Edge}
    (hes : ∀ e ∈ es, e.source < g.size ∧ e.target < g.size) :
    Store.Gives (hops pattern known es) g ((es.filter (g.fits pattern)).map g.hopAt) g := by
  induction es generalizing known with
  | nil => exact Store.Gives.pure _ _
  | cons e es ih =>
      have hrest : ∀ e ∈ es, e.source < g.size ∧ e.target < g.size :=
        fun e he => hes e (List.mem_cons_of_mem _ he)
      obtain ⟨hsource, htarget⟩ := hes e List.mem_cons_self
      unfold hops
      by_cases hr : e.relation.isAmong pattern.relations = true
      · rw [if_pos hr]
        obtain ⟨known₁, hs, hknown₁⟩ := gives_lookUp hknown hsource
        refine hs.bind ?_
        by_cases hacc : pattern.source.accepts (g.entity e.source) = true
        · obtain ⟨known₂, ht, hknown₂⟩ := gives_lookUp hknown₁ htarget
          simp only [Graph.toEntity_nodeAt, hacc, if_true]
          refine ht.bind ?_
          by_cases hacc' : pattern.target.accepts (g.entity e.target) = true
          · have hfit : g.fits pattern e = true := by simp [Graph.fits, hr, hacc, hacc']
            rw [List.filter_cons_of_pos hfit]
            simp only [Graph.toEntity_nodeAt, hacc', if_true]
            exact (ih hknown₂ hrest).bind (Store.Gives.pure _ _)
          · have hfit : ¬ g.fits pattern e = true := by simp [Graph.fits, hacc']
            rw [List.filter_cons_of_neg hfit]
            simp only [Graph.toEntity_nodeAt, hacc']
            exact ih hknown₂ hrest
        · have hfit : ¬ g.fits pattern e = true := by simp [Graph.fits, hacc]
          rw [List.filter_cons_of_neg hfit]
          simp only [Graph.toEntity_nodeAt, hacc]
          exact ih hknown₁ hrest
      · have hfit : ¬ g.fits pattern e = true := by simp [Graph.fits, hr]
        rw [if_neg hr, List.filter_cons_of_neg hfit]
        exact ih hknown hrest

/-- The edges that fit a pattern. -/
theorem yields_runQuery (hg : g.Closed) (pattern : HopPattern) :
    Yields (runQuery pattern) g (g.hopsOf pattern) g := by
  have hedges : Store.Gives Store.edges g g.edges.toList g := Store.Gives.read rfl
  refine Yields.perform (hedges.bind (gives_hops pattern (by simp) ?_))
  intro e he
  exact hg e (Array.mem_toList_iff.mp he)

/-! ### Finding nodes -/

/-- The numbers with a name. -/
theorem gives_idsNamed (name : String) :
    Store.Gives (Store.idsNamed name) g (g.idsWhere fun e => e.name == name) g :=
  Store.Gives.read (congrArg _ (g.idsNamed_eq name))

/-- The first of some nodes that meets a condition. -/
theorem gives_firstNode (p : Node → Bool) {ids : List NodeId} (h : ∀ id ∈ ids, id < g.size) :
    Store.Gives (firstNode p ids) g ((ids.map g.nodeAt).find? p) g := by
  induction ids with
  | nil => exact Store.Gives.pure _ _
  | cons id ids ih =>
      refine (Store.gives_node (h id List.mem_cons_self)).bind ?_
      rw [List.map_cons, List.find?_cons]
      cases hp : p (g.nodeAt id) with
      | true => exact Store.Gives.pure _ _
      | false => exact ih fun i hi => h i (List.mem_cons_of_mem _ hi)

/-- The first node with a name that meets a condition. -/
theorem gives_firstNamed (name : String) (d : Entity → Bool) :
    Store.Gives (do firstNode (fun n => d n.toEntity) (← Store.idsNamed name)) g
      (g.firstWhere fun e => e.name == name && d e) g := by
  refine (gives_idsNamed name).bind ?_
  rw [← Graph.find?_idsWhere]
  exact gives_firstNode _ fun id hid => (Graph.mem_idsWhere.mp hid).1

/-- The first node with a name. -/
theorem yields_findByName (name : String) :
    Yields (findByName name) g (g.firstWhere fun e => e.name == name) g := by
  refine Yields.perform ((gives_idsNamed name).bind ?_)
  cases hids : g.idsWhere fun e => e.name == name with
  | nil =>
      rw [Graph.firstWhere, hids]
      exact Store.Gives.pure _ _
  | cons id ids =>
      have hid : id ∈ g.idsWhere fun e => e.name == name := hids ▸ List.mem_cons_self
      rw [Graph.firstWhere, hids]
      exact (Store.gives_node (Graph.mem_idsWhere.mp hid).1).map some

/-- The first node with a name and some labels. -/
theorem yields_findByLabelsAndName (labels : List Label) (name : String) :
    Yields (findByLabelsAndName labels name) g
      (g.firstWhere fun e => e.name == name && labels.all e.has) g :=
  Yields.perform (gives_firstNamed name fun e => labels.all e.has)

/-- The first type of a package with a simple name. -/
theorem yields_findInPackage (simple package : String) :
    Yields (findInPackage simple package) g
      (g.firstWhere fun e => Name.lastSegment e.name == Name.lastSegment simple &&
        e.isInPackage simple package) g := by
  have hids : Store.Gives (Store.idsWithLastSegment (Name.lastSegment simple)) g
      (g.idsWhere fun e => Name.lastSegment e.name == Name.lastSegment simple) g :=
    Store.Gives.read (congrArg _ (g.idsWithLastSegment_eq _))
  refine Yields.perform (hids.bind ?_)
  rw [← Graph.find?_idsWhere]
  exact gives_firstNode _ fun id hid => (Graph.mem_idsWhere.mp hid).1

/-- The supertypes of the types with a name. -/
theorem yields_supertypesOf (hg : g.Closed) (name : String) (relation : Relation) (l : Label) :
    Yields (supertypesOf name relation l) g (g.supertypesOf name relation l) g := by
  have hsources : ∀ id ∈ g.idsWhere fun e => e.name == name,
      Store.Gives (do
        ((← Store.edgesInto id).filter (·.relation == relation)).mapM
          fun e => Store.node e.source) g
        (((g.edgesInto id).filter (·.relation == relation)).map fun e => g.nodeAt e.source) g := by
    intro id hid
    have hedges : Store.Gives (Store.edgesInto id) g (g.edgesInto id) g :=
      Store.Gives.read (Store.known_of_lt (Graph.mem_idsWhere.mp hid).1 _)
    refine hedges.bind (Store.Gives.mapM fun e he => Store.gives_node ?_)
    have hinto : e ∈ g.edgesInto id := (List.mem_filter.mp he).1
    rw [Graph.edgesInto_eq] at hinto
    have hmem : e ∈ g.edges.toList := (List.mem_filter.mp hinto).1
    exact (hg e (Array.mem_toList_iff.mp hmem)).1
  exact Yields.perform
    ((gives_idsNamed name).bind ((Store.Gives.mapM hsources).bind (Store.Gives.pure _ _)))

/-- The size of the graph. -/
theorem yields_summary :
    Yields summary g
      { nodes := g.size
        relationships := g.edges.toList.length
        inheritance := g.edges.toList.countP (Relation.inheritance.contains ·.relation)
        compositions := g.edges.toList.countP (·.relation == .composing) } g := by
  have hedges : Store.Gives Store.edges g g.edges.toList g := Store.Gives.read rfl
  have hids : Store.Gives Store.nodeIds g (List.range g.size) g := Store.Gives.read rfl
  refine Yields.perform (hedges.bind (hids.bind ?_))
  rw [List.length_range]
  exact Store.Gives.pure _ _

/-! ### New nodes -/

/-- Creating a node. -/
theorem yields_createNode (name : String) (kind : EntityKind) (labels : List Label) :
    Yields (createNode name kind labels) g
      ((g.addNode name (.kind kind :: labels)).nodeAt g.size)
      (g.addNode name (.kind kind :: labels)) := by
  refine Yields.perform ((Store.gives_createNode name _).bind (Store.gives_node ?_))
  rw [Graph.size_addNode]
  exact Nat.lt_succ_self _

/-- Whether an entity is the one that a name and a kind ask for. -/
def isNamed (name : String) (kind : EntityKind) (e : Entity) : Bool :=
  e.name == name && e.has (.kind kind)

/-- Asking for a node that is there answers it, with the labels for a match. -/
theorem yields_getOrCreateNode_of_some {name : String} {kind : EntityKind}
    (onCreate onMatch : List Label) {n : Node} (h : g.firstWhere (isNamed name kind) = some n) :
    Yields (getOrCreateNode name kind onCreate onMatch) g
      ((g.label n.id onMatch).nodeAt n.id) (g.label n.id onMatch) := by
  obtain ⟨hlt, hn, -⟩ := Graph.firstWhere_eq_some h
  have hfirst := gives_firstNamed (g := g) name fun e => e.has (.kind kind)
  rw [show (fun e : Entity => e.name == name && e.has (.kind kind)) = isNamed name kind from rfl,
    h] at hfirst
  refine Yields.perform (hfirst.bind ?_)
  cases onMatch with
  | nil =>
      rw [Graph.label_nil, ← hn]
      exact Store.Gives.pure _ _
  | cons l ls =>
      refine (Store.gives_addLabels hlt _).bind (Store.gives_node ?_)
      rwa [Graph.size_label]

/-- Asking for a node that is not there creates it, with the labels for a creation. -/
theorem yields_getOrCreateNode_of_none {name : String} {kind : EntityKind}
    (onCreate onMatch : List Label) (h : g.firstWhere (isNamed name kind) = none) :
    Yields (getOrCreateNode name kind onCreate onMatch) g
      ((g.addNode name (.kind kind :: onCreate)).nodeAt g.size)
      (g.addNode name (.kind kind :: onCreate)) := by
  have hfirst := gives_firstNamed (g := g) name fun e => e.has (.kind kind)
  rw [show (fun e : Entity => e.name == name && e.has (.kind kind)) = isNamed name kind from rfl,
    h] at hfirst
  refine Yields.perform (hfirst.bind ((Store.gives_createNode name _).bind
    (Store.gives_node ?_)))
  rw [Graph.size_addNode]
  exact Nat.lt_succ_self _

end Session

end Variability
