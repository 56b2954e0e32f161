import Variability.Graph.Reachable
import Variability.Graph.Pattern

/-!
# Views of the graph

Rules of the analysis read a graph through few questions: which labels and properties a node has,
what its name is, and which edges there are. This module states the graph in these terms.
`Graph.entity` answers them for every number, a number without a node having no name, no label and
no property, so that no statement below has to ask first whether a node exists.

Two updates are all that detection makes, labelling some nodes (`Graph.labelAll`) and setting a
property of some nodes (`Graph.putAll`). Each has one lemma per view.

## Main results

* `Graph.ext_entity`: size, edges and entities determine a graph.
* `Graph.nodes_eq`: the nodes are the entities with their numbers, in order.
* `Graph.inOrder_of_perm`: the edges of a node are listed in the order of their creation.
* `Graph.entity_labelAll`, `Graph.entity_putAll`: the entity of a node after either update.
* `Graph.labelAll_eq_self`, `Graph.putAll_eq_self`: either update changes nothing where it finds
  what it would write.
-/

namespace Variability

namespace Entity

/-- The entity with more labels. -/
def label (e : Entity) (ls : List Label) : Entity :=
  { e with labels := e.labels.insertAll ls }

/-- The entity with a property set. -/
def put (e : Entity) (p : Property) (v : Value) : Entity :=
  { e with properties := e.properties.set p v }

/-- Labelling keeps the name. -/
@[simp] theorem name_label (e : Entity) (ls : List Label) : (e.label ls).name = e.name := rfl

/-- Labelling adds the given labels and no other. -/
@[simp] theorem has_label (e : Entity) (ls : List Label) (l : Label) :
    (e.label ls).has l = (e.has l || decide (l ∈ ls)) := by
  simp only [has, label, LabelSet.has_insertAll]

/-- Labelling keeps every property. -/
@[simp] theorem property?_label (e : Entity) (ls : List Label) (p : Property) :
    (e.label ls).property? p = e.property? p := rfl

/-- Setting a property keeps the name. -/
@[simp] theorem name_put (e : Entity) (p : Property) (v : Value) : (e.put p v).name = e.name :=
  rfl

/-- Setting a property keeps every label. -/
@[simp] theorem has_put (e : Entity) (p : Property) (v : Value) (l : Label) :
    (e.put p v).has l = e.has l := rfl

/-- Setting a property changes that property and no other. -/
@[simp] theorem property?_put (e : Entity) (p q : Property) (v : Value) :
    (e.put p v).property? q = if p = q then some v else e.property? q := by
  simp only [property?, put, PropertyTable.get?_set]

/-- Name, labels and properties determine an entity. -/
theorem ext_views {e f : Entity} (hname : e.name = f.name) (hlabels : ∀ l, e.has l = f.has l)
    (hprops : ∀ p, e.property? p = f.property? p) : e = f := by
  rcases e with ⟨name, labels, properties⟩
  rcases f with ⟨name', labels', properties'⟩
  obtain rfl : name = name' := hname
  obtain rfl : labels = labels' := LabelSet.ext_has hlabels
  obtain rfl : properties = properties' := PropertyTable.ext_get? hprops
  rfl

/-- Labels that are there already add nothing. -/
theorem label_eq_self {e : Entity} {ls : List Label} (h : ∀ l ∈ ls, e.has l = true) :
    e.label ls = e := by
  refine ext_views rfl (fun l => ?_) fun _ => rfl
  rw [has_label]
  by_cases hl : l ∈ ls
  · simp [h l hl]
  · simp [hl]

/-- A value that is there already adds nothing. -/
theorem put_eq_self {e : Entity} {p : Property} {v : Value} (h : e.property? p = some v) :
    e.put p v = e := by
  refine ext_views rfl (fun _ => rfl) fun q => ?_
  rw [property?_put]
  split
  · rename_i hq
    rw [← hq, h]
  · rfl

/-- A flag is up exactly when its property holds the value true. -/
theorem flag_eq_true_iff {e : Entity} {p : Property} :
    e.flag p = true ↔ e.property? p = some (.bool true) := by
  unfold flag
  rcases e.property? p with _ | (n | b)
  · simp
  · simp [Value.bool?]
  · simp [Value.bool?]

/-- Whether an entity takes part in a design pattern. -/
theorem hasPattern_iff {e : Entity} : e.hasPattern = true ↔ ∃ p, e.has (.pattern p) = true := by
  rw [Entity.hasPattern, List.any_eq_true]
  constructor
  · rintro ⟨p, -, hp⟩
    exact ⟨p, hp⟩
  · rintro ⟨p, hp⟩
    exact ⟨p, by cases p <;> simp [DesignPattern.all], hp⟩

end Entity

namespace Graph

/-! ### Nodes by number -/

/-- The number of nodes. -/
def size (g : Graph) : Nat := g.entities.size

/-- What is known about a node. A number without a node has no name, label or property. -/
def entity (g : Graph) (id : NodeId) : Entity := g.entities[id]?.getD { name := "" }

/-- The entity of a node together with its number. -/
def nodeAt (g : Graph) (id : NodeId) : Node := { g.entity id with id }

/-- Both ends of every edge exist. The store keeps this: it refuses an edge with an unknown end,
and never removes a single node. -/
def Closed (g : Graph) : Prop := ∀ e ∈ g.edges, e.source < g.size ∧ e.target < g.size

instance (g : Graph) : Decidable g.Closed :=
  inferInstanceAs (Decidable (∀ e ∈ g.edges, e.source < g.size ∧ e.target < g.size))

@[simp] theorem toEntity_nodeAt (g : Graph) (id : NodeId) :
    (g.nodeAt id).toEntity = g.entity id := rfl

@[simp] theorem id_nodeAt (g : Graph) (id : NodeId) : (g.nodeAt id).id = id := rfl

/-- A stored entity is the entity of its number. -/
theorem entity_of_getElem? {g : Graph} {id : NodeId} {e : Entity}
    (h : g.entities[id]? = some e) : g.entity id = e := by
  rw [entity, h, Option.getD_some]

/-- Every number below the size has a stored entity. -/
theorem getElem?_of_lt {g : Graph} {id : NodeId} (h : id < g.size) :
    g.entities[id]? = some (g.entity id) := by
  have hsome := Array.getElem?_eq_getElem h
  rw [hsome, entity, hsome, Option.getD_some]

/-- A number without a node has nothing known about it. -/
theorem entity_of_le {g : Graph} {id : NodeId} (h : g.size ≤ id) :
    g.entity id = { name := "" } := by
  have hnone : g.entities[id]? = none := Array.getElem?_eq_none h
  rw [entity, hnone, Option.getD_none]

/-- Only nodes carry labels. -/
theorem lt_size_of_has {g : Graph} {id : NodeId} {l : Label} (h : (g.entity id).has l = true) :
    id < g.size := by
  refine Nat.lt_of_not_le fun hle => ?_
  rw [entity_of_le hle] at h
  simp [Entity.has] at h

/-- Only nodes are types. -/
theorem lt_size_of_isType {g : Graph} {id : NodeId} (h : (g.entity id).isType = true) :
    id < g.size := by
  rcases (Bool.or_eq_true _ _).mp h with h | h
  · exact lt_size_of_has h
  · exact lt_size_of_has h

/-- Only nodes have properties. -/
theorem lt_size_of_property? {g : Graph} {id : NodeId} {p : Property} {v : Value}
    (h : (g.entity id).property? p = some v) : id < g.size := by
  refine Nat.lt_of_not_le fun hle => ?_
  rw [entity_of_le hle] at h
  simp [Entity.property?] at h

/-- Size, edges and entities determine a graph. -/
theorem ext_entity {g h : Graph} (hsize : g.size = h.size) (hedges : g.edges = h.edges)
    (hentity : ∀ id, g.entity id = h.entity id) : g = h := by
  have hentities : g.entities = h.entities := by
    apply Array.ext_getElem?
    intro id
    by_cases hlt : id < g.size
    · rw [getElem?_of_lt hlt, getElem?_of_lt (hsize ▸ hlt), hentity]
    · have hle : g.size ≤ id := Nat.le_of_not_lt hlt
      have hle' : h.size ≤ id := hsize ▸ hle
      rw [Array.getElem?_eq_none hle, Array.getElem?_eq_none hle']
  rcases g with ⟨entities, edges, byName, bySimpleName, hname, hsimple⟩
  rcases h with ⟨entities', edges', byName', bySimpleName', hname', hsimple'⟩
  obtain rfl : entities = entities' := hentities
  obtain rfl : edges = edges' := hedges
  -- The tables are those of the entities.
  obtain rfl : byName = byName' := hname.trans hname'.symm
  obtain rfl : bySimpleName = bySimpleName' := hsimple.trans hsimple'.symm
  rfl

/-- A look-up by number finds exactly the nodes below the size. -/
theorem node?_of_lt {g : Graph} {id : NodeId} (h : id < g.size) :
    g.node? id = some (g.nodeAt id) := by
  rw [node?, getElem?_of_lt h, Option.map_some]
  rfl

/-- A node exists exactly when its number is below the size. -/
theorem contains_iff {g : Graph} {id : NodeId} : g.contains id = true ↔ id < g.size := by
  simp [contains, size]

/-- The nodes are the entities with their numbers, in order. -/
theorem nodes_eq (g : Graph) : g.nodes = (List.range g.size).map g.nodeAt := by
  apply List.ext_getElem
  · simp [nodes, size]
  · intro i h₁ h₂
    have hi : i < g.size := by simpa [nodes, size] using h₁
    have hget := getElem?_of_lt hi
    rw [Array.getElem?_eq_getElem hi, Option.some.injEq] at hget
    simp only [nodes, nodeAt, List.getElem_mapIdx, List.getElem_map, List.getElem_range,
      Array.getElem_toList]
    exact congrArg (fun e : Entity => { e with id := i : Node }) hget

/-- The numbers of the nodes that meet a condition, in order. -/
def idsWhere (g : Graph) (c : Entity → Bool) : List NodeId :=
  (List.range g.size).filter fun id => c (g.entity id)

/-- The selected numbers are those of the nodes that meet the condition. -/
@[simp] theorem mem_idsWhere {g : Graph} {c : Entity → Bool} {id : NodeId} :
    id ∈ g.idsWhere c ↔ id < g.size ∧ c (g.entity id) = true := by
  simp [idsWhere]

/-- Selecting nodes by their entities is selecting their numbers. -/
theorem filter_nodes (g : Graph) (c : Entity → Bool) :
    g.nodes.filter (fun n => c n.toEntity) = (g.idsWhere c).map g.nodeAt := by
  rw [nodes_eq, List.filter_map, idsWhere]
  rfl

/-! ### The edges of a node -/

/-- Inserting keeps the edges. -/
theorem insertEdge_perm (e : Edge × Nat) (fs : List (Edge × Nat)) :
    (insertEdge e fs).Perm (e :: fs) := by
  induction fs with
  | nil => rfl
  | cons f fs ih =>
      rw [insertEdge]
      split
      · rfl
      · exact (ih.cons f).trans (.swap e f fs)

/-- Inserting into edges sorted by number keeps them sorted. -/
theorem pairwise_insertEdge (e : Edge × Nat) {fs : List (Edge × Nat)}
    (hfs : fs.Pairwise (·.2 ≤ ·.2)) : (insertEdge e fs).Pairwise (·.2 ≤ ·.2) := by
  induction fs with
  | nil => exact List.pairwise_singleton _ _
  | cons f fs ih =>
      obtain ⟨hf, hrest⟩ := List.pairwise_cons.mp hfs
      rw [insertEdge]
      split
      · rename_i hle
        refine List.pairwise_cons.mpr ⟨fun x hx => ?_, hfs⟩
        rcases List.mem_cons.mp hx with rfl | hx
        · exact hle
        · exact Nat.le_trans hle (hf x hx)
      · rename_i hlt
        refine List.pairwise_cons.mpr ⟨fun x hx => ?_, ih hrest⟩
        rcases List.mem_cons.mp ((insertEdge_perm e fs).mem_iff.mp hx) with rfl | hx
        · exact Nat.le_of_not_le hlt
        · exact hf x hx

/-- Inserting edges one after the other sorts them by number. -/
theorem foldl_insertEdge (es : List (Edge × Nat)) {sorted : List (Edge × Nat)}
    (hsorted : sorted.Pairwise (·.2 ≤ ·.2)) :
    (es.foldl (fun sorted e => insertEdge e sorted) sorted).Perm (es ++ sorted) ∧
      (es.foldl (fun sorted e => insertEdge e sorted) sorted).Pairwise (·.2 ≤ ·.2) := by
  induction es generalizing sorted with
  | nil => exact ⟨.refl _, hsorted⟩
  | cons e es ih =>
      obtain ⟨hperm, hpairwise⟩ := ih (pairwise_insertEdge e hsorted)
      exact ⟨hperm.trans (((insertEdge_perm e sorted).append_left es).trans List.perm_middle),
        hpairwise⟩

/-- **Sorting restores the order of creation**, in whatever order the edges of a node come. -/
theorem inOrder_of_perm {g : Graph} {p : Edge → Bool} {es : List (Edge × Nat)}
    (hes : es.Perm (g.incident p)) : inOrder es = g.edges.toList.filter p := by
  obtain ⟨hperm, hsorted⟩ := foldl_insertEdge es List.Pairwise.nil
  have hnumbered : g.edges.toList.zipIdx.Pairwise (·.2 < ·.2) := by
    rw [← List.pairwise_map, List.zipIdx_map_snd]
    exact List.pairwise_lt_range' 1
  have hcreated : (g.edges.toList.zipIdx.filter fun e => p e.1).Pairwise (·.2 ≤ ·.2) :=
    (hnumbered.filter _).imp Nat.le_of_lt
  rw [List.append_nil] at hperm
  have hall := (hperm.trans hes).trans (List.reverse_perm _)
  have hsort : es.foldl (fun sorted e => insertEdge e sorted) [] =
      g.edges.toList.zipIdx.filter fun e => p e.1 := by
    refine hall.eq_of_pairwise (fun a b ha hb hab hba => ?_) hsorted hcreated
    -- A number belongs to one edge.
    obtain ⟨a, i⟩ := a
    obtain ⟨b, j⟩ := b
    obtain rfl : i = j := Nat.le_antisymm hab hba
    have ha := List.mk_mem_zipIdx_iff_getElem?.mp (List.mem_filter.mp (hall.mem_iff.mp ha)).1
    have hb := List.mk_mem_zipIdx_iff_getElem?.mp (List.mem_filter.mp hb).1
    rw [ha, Option.some.injEq] at hb
    rw [hb]
  have hfilter := List.filter_map (p := p) (f := Prod.fst) (l := g.edges.toList.zipIdx)
  rw [List.zipIdx_map_fst] at hfilter
  rw [inOrder, hsort, hfilter]
  rfl

theorem edgesFrom_eq (g : Graph) (id : NodeId) :
    g.edgesFrom id = g.edges.toList.filter (·.source == id) := inOrder_of_perm (.refl _)

theorem edgesInto_eq (g : Graph) (id : NodeId) :
    g.edgesInto id = g.edges.toList.filter (·.target == id) := inOrder_of_perm (.refl _)

/-! ### Single updates -/

/-- Labels a node. -/
def label (g : Graph) (id : NodeId) (ls : List Label) : Graph :=
  g.update id (·.label ls) (Entity.name_label · ls)

/-- Sets a property of a node. -/
def put (g : Graph) (id : NodeId) (p : Property) (v : Value) : Graph :=
  g.update id (·.put p v) (Entity.name_put · p v)

@[simp] theorem size_update (g : Graph) (id : NodeId) (f : Entity → Entity)
    {hf : ∀ e, (f e).name = e.name} : (g.update id f hf).size = g.size := by
  simp [update, size]

@[simp] theorem edges_update (g : Graph) (id : NodeId) (f : Entity → Entity)
    {hf : ∀ e, (f e).name = e.name} : (g.update id f hf).edges = g.edges := rfl

/-- An update changes the entity of its node and no other. -/
theorem entity_update (g : Graph) (id i : NodeId) (f : Entity → Entity)
    {hf : ∀ e, (f e).name = e.name} : (g.update id f hf).entity i =
      if id = i ∧ i < g.size then f (g.entity i) else g.entity i := by
  by_cases hi : i < g.size
  · have hget : (g.update id f hf).entities[i]? =
        some (if id = i then f (g.entity i) else g.entity i) := by
      rw [update, Array.getElem?_modify, getElem?_of_lt hi]
      by_cases hid : id = i <;> simp [hid]
    rw [entity_of_getElem? hget]
    simp [hi]
  · have hle : g.size ≤ i := Nat.le_of_not_lt hi
    rw [if_neg fun h => hi h.2, entity_of_le hle, entity_of_le (by rwa [size_update])]

@[simp] theorem size_label (g : Graph) (id : NodeId) (ls : List Label) :
    (g.label id ls).size = g.size := size_update ..

@[simp] theorem edges_label (g : Graph) (id : NodeId) (ls : List Label) :
    (g.label id ls).edges = g.edges := rfl

/-- Labelling a node that exists succeeds. -/
theorem addLabels?_of_lt {g : Graph} {id : NodeId} (h : id < g.size) (ls : List Label) :
    g.addLabels? id ls = some (g.label id ls) := by
  rw [addLabels?, if_pos (contains_iff.mpr h)]
  rfl

@[simp] theorem size_put (g : Graph) (id : NodeId) (p : Property) (v : Value) :
    (g.put id p v).size = g.size := size_update ..

@[simp] theorem edges_put (g : Graph) (id : NodeId) (p : Property) (v : Value) :
    (g.put id p v).edges = g.edges := rfl

/-- Setting a property of a node that exists succeeds. -/
theorem setProperty?_of_lt {g : Graph} {id : NodeId} (h : id < g.size) (p : Property)
    (v : Value) : g.setProperty? id p v = some (g.put id p v) := by
  rw [setProperty?, if_pos (contains_iff.mpr h)]
  rfl

/-- No labels change nothing. -/
theorem label_nil (g : Graph) (id : NodeId) : g.label id [] = g := by
  refine ext_entity (size_label ..) (edges_label ..) fun i => ?_
  rw [label, entity_update]
  split
  · exact Entity.label_eq_self (by simp)
  · rfl

/-! ### New nodes and edges -/

@[simp] theorem size_addNode (g : Graph) (name : String) (ls : List Label) :
    (g.addNode name ls).size = g.size + 1 := by
  simp [addNode, size]

@[simp] theorem edges_addNode (g : Graph) (name : String) (ls : List Label) :
    (g.addNode name ls).edges = g.edges := rfl

/-- A new node gets the next number; the others stay as they are. -/
theorem entity_addNode (g : Graph) (name : String) (ls : List Label) (i : NodeId) :
    (g.addNode name ls).entity i =
      if i = g.size then { name, labels := .ofList ls } else g.entity i := by
  unfold entity addNode size
  rw [Array.getElem?_push]
  by_cases hi : i = g.entities.size
  · rw [if_pos hi, if_pos hi, Option.getD_some]
  · rw [if_neg hi, if_neg hi]

@[simp] theorem size_addEdge (g : Graph) (s : NodeId) (r : Relation) (t : NodeId) :
    (g.addEdge s r t).size = g.size := rfl

/-- The number of edges whose relation meets a condition. -/
def edgeCount (g : Graph) (p : Relation → Bool) : Nat := g.edges.toList.countP (p ·.relation)

@[simp] theorem edgeCount_addNode (g : Graph) (p : Relation → Bool) (name : String)
    (ls : List Label) : (g.addNode name ls).edgeCount p = g.edgeCount p := rfl

theorem edgeCount_addEdge (g : Graph) (p : Relation → Bool) (s : NodeId) (r : Relation)
    (t : NodeId) : (g.addEdge s r t).edgeCount p = g.edgeCount p + if p r then 1 else 0 := by
  simp [edgeCount, addEdge, List.countP_append, List.countP_singleton]

@[simp] theorem entity_addEdge (g : Graph) (s : NodeId) (r : Relation) (t i : NodeId) :
    (g.addEdge s r t).entity i = g.entity i := rfl

/-! ### Updates of many nodes -/

/-- Labels some nodes, one after the other. -/
def labelAll (g : Graph) (l : Label) (ids : List NodeId) : Graph :=
  ids.foldl (fun h id => h.label id [l]) g

/-- Sets a property of some nodes, one after the other, to a value that depends on the node. -/
def putAll (g : Graph) (p : Property) (v : NodeId → Value) (ids : List NodeId) : Graph :=
  ids.foldl (fun h id => h.put id p (v id)) g

@[simp] theorem size_labelAll (g : Graph) (l : Label) (ids : List NodeId) :
    (g.labelAll l ids).size = g.size := by
  induction ids generalizing g with
  | nil => rfl
  | cons id ids ih => exact (ih (g.label id [l])).trans (size_label ..)

@[simp] theorem edges_labelAll (g : Graph) (l : Label) (ids : List NodeId) :
    (g.labelAll l ids).edges = g.edges := by
  induction ids generalizing g with
  | nil => rfl
  | cons id ids ih => exact ih (g.label id [l])

/-- Labelling some nodes adds the label to these nodes and changes nothing else. -/
theorem entity_labelAll (g : Graph) (l : Label) (ids : List NodeId) (i : NodeId) :
    (g.labelAll l ids).entity i =
      if i ∈ ids ∧ i < g.size then (g.entity i).label [l] else g.entity i := by
  induction ids generalizing g with
  | nil => simp [labelAll]
  | cons id ids ih =>
      have hstep : g.labelAll l (id :: ids) = (g.label id [l]).labelAll l ids := rfl
      rw [hstep, ih, size_label, label, entity_update]
      by_cases hi : i < g.size
      · by_cases hid : id = i
        · subst hid
          -- A node that comes up again has the label already.
          have htwice : ((g.entity id).label [l]).label [l] = (g.entity id).label [l] :=
            Entity.label_eq_self (by simp)
          simp [hi, htwice]
        · have hne : ¬ i = id := fun h => hid h.symm
          simp [hi, hid, hne]
      · simp [hi]

@[simp] theorem size_putAll (g : Graph) (p : Property) (v : NodeId → Value)
    (ids : List NodeId) : (g.putAll p v ids).size = g.size := by
  induction ids generalizing g with
  | nil => rfl
  | cons id ids ih => exact (ih (g.put id p (v id))).trans (size_put ..)

@[simp] theorem edges_putAll (g : Graph) (p : Property) (v : NodeId → Value)
    (ids : List NodeId) : (g.putAll p v ids).edges = g.edges := by
  induction ids generalizing g with
  | nil => rfl
  | cons id ids ih => exact ih (g.put id p (v id))

/-- Setting a property of some nodes gives it to these nodes and changes nothing else. -/
theorem entity_putAll (g : Graph) (p : Property) (v : NodeId → Value) (ids : List NodeId)
    (i : NodeId) :
    (g.putAll p v ids).entity i =
      if i ∈ ids ∧ i < g.size then (g.entity i).put p (v i) else g.entity i := by
  induction ids generalizing g with
  | nil => simp [putAll]
  | cons id ids ih =>
      have hstep : g.putAll p v (id :: ids) = (g.put id p (v id)).putAll p v ids := rfl
      rw [hstep, ih, size_put, put, entity_update]
      by_cases hi : i < g.size
      · by_cases hid : id = i
        · subst hid
          -- The value depends on the node alone, so writing it again changes nothing.
          have htwice : ((g.entity id).put p (v id)).put p (v id) = (g.entity id).put p (v id) :=
            Entity.put_eq_self (by simp)
          simp [hi, htwice]
        · have hne : ¬ i = id := fun h => hid h.symm
          simp [hi, hid, hne]
      · simp [hi]

/-- Labelling keeps names. -/
@[simp] theorem name_labelAll (g : Graph) (l : Label) (ids : List NodeId) (i : NodeId) :
    ((g.labelAll l ids).entity i).name = (g.entity i).name := by
  rw [entity_labelAll]
  split <;> rfl

/-- Labelling keeps properties. -/
@[simp] theorem property?_labelAll (g : Graph) (l : Label) (ids : List NodeId) (i : NodeId)
    (p : Property) : ((g.labelAll l ids).entity i).property? p = (g.entity i).property? p := by
  rw [entity_labelAll]
  split <;> rfl

/-- After labelling, a node has the labels it had, and the new one if it was selected. -/
@[simp] theorem has_labelAll (g : Graph) (l : Label) (ids : List NodeId) (i : NodeId)
    (l' : Label) :
    ((g.labelAll l ids).entity i).has l' =
      ((g.entity i).has l' || decide (l' = l ∧ i ∈ ids ∧ i < g.size)) := by
  rw [entity_labelAll]
  split
  · rename_i h
    simp [h]
  · rename_i h
    simp [h]

/-- Setting a property keeps names. -/
@[simp] theorem name_putAll (g : Graph) (p : Property) (v : NodeId → Value)
    (ids : List NodeId) (i : NodeId) :
    ((g.putAll p v ids).entity i).name = (g.entity i).name := by
  rw [entity_putAll]
  split <;> rfl

/-- Setting a property keeps labels. -/
@[simp] theorem has_putAll (g : Graph) (p : Property) (v : NodeId → Value)
    (ids : List NodeId) (i : NodeId) (l : Label) :
    ((g.putAll p v ids).entity i).has l = (g.entity i).has l := by
  rw [entity_putAll]
  split <;> rfl

/-- After setting a property, the selected nodes have the new value. -/
@[simp] theorem property?_putAll (g : Graph) (p : Property) (v : NodeId → Value)
    (ids : List NodeId) (i : NodeId) (q : Property) :
    ((g.putAll p v ids).entity i).property? q =
      if p = q ∧ i ∈ ids ∧ i < g.size then some (v i) else (g.entity i).property? q := by
  rw [entity_putAll]
  by_cases h : i ∈ ids ∧ i < g.size
  · simp [h]
  · simp [h]

/-- Labelling nodes that have the label changes nothing. -/
theorem labelAll_eq_self {g : Graph} {l : Label} {ids : List NodeId}
    (h : ∀ i ∈ ids, i < g.size → (g.entity i).has l = true) : g.labelAll l ids = g := by
  refine ext_entity (size_labelAll ..) (edges_labelAll ..) fun i => ?_
  rw [entity_labelAll]
  split
  · rename_i hi
    exact Entity.label_eq_self (by simpa using h i hi.1 hi.2)
  · rfl

/-- Setting a property of nodes that have the value changes nothing. -/
theorem putAll_eq_self {g : Graph} {p : Property} {v : NodeId → Value} {ids : List NodeId}
    (h : ∀ i ∈ ids, i < g.size → (g.entity i).property? p = some (v i)) :
    g.putAll p v ids = g := by
  refine ext_entity (size_putAll ..) (edges_putAll ..) fun i => ?_
  rw [entity_putAll]
  split
  · rename_i hi
    exact Entity.put_eq_self (h i hi.1 hi.2)
  · rfl

/-! ### Closed graphs -/

theorem closed_empty : empty.Closed := by
  intro e he
  simp [empty] at he

theorem Closed.addNode {g : Graph} (h : g.Closed) (name : String) (ls : List Label) :
    (g.addNode name ls).Closed := by
  intro e he
  obtain ⟨hsource, htarget⟩ := h e he
  rw [size_addNode]
  exact ⟨Nat.lt_succ_of_lt hsource, Nat.lt_succ_of_lt htarget⟩

theorem Closed.addEdge {g : Graph} (h : g.Closed) {s t : NodeId} (r : Relation)
    (hs : s < g.size) (ht : t < g.size) : (g.addEdge s r t).Closed := by
  intro e he
  rcases Array.mem_push.mp he with he | rfl
  · exact h e he
  · exact ⟨hs, ht⟩

theorem Closed.update {g : Graph} (h : g.Closed) (id : NodeId) (f : Entity → Entity)
    {hf : ∀ e, (f e).name = e.name} : (g.update id f hf).Closed := by
  intro e he
  rw [size_update]
  exact h e he

end Graph

end Variability
