import Variability.Proofs.Queries
import Mathlib.Data.List.TakeWhile

/-!
# What a store shows of its history

The graph of a store keeps four things in step: the entities, the edges, and the two tables by
which nodes are found by name and by the last segment of a name. This module writes the history of
a store down by itself, as the names of the nodes that were created and the edges that were added
since the store was last cleared (`Store.History`). Every question to the store is answered as its
history has it, whatever has been called on the store, and in which order. A call fails exactly when
it names a node that the history does not have, and then it changes nothing.

## Main results

* `Name.lastSegment_eq_iff`: the last segment is what stands after the last dot.
* `Store.history_after`: the graph of a store shows the history of the calls.
* `Store.after_reflects`: a store answers calls and refuses them as its history says.
-/

namespace Variability

/-! ### Last segments -/

/-- What follows the last `d` has no `d` in it, and is the whole list or stands after a `d`. -/
theorem Text.afterLast_eq_iff {d : Char} {cs xs : List Char} :
    afterLast d cs = xs ↔ d ∉ xs ∧ (cs = xs ∨ ∃ front, cs = front ++ d :: xs) := by
  rw [afterLast, List.reverse_eq_iff]
  constructor
  · intro htake
    have hsplit := List.takeWhile_append_dropWhile (p := (· != d)) (l := cs.reverse)
    rw [htake] at hsplit
    constructor
    · intro hd
      have hmem : d ∈ cs.reverse.takeWhile (· != d) := by
        rw [htake]
        exact List.mem_reverse.mpr hd
      simpa using List.mem_takeWhile_imp hmem
    · have hcs : cs = (cs.reverse.dropWhile (· != d)).reverse ++ xs := by
        have hreverse := congrArg List.reverse hsplit
        rw [List.reverse_append, List.reverse_reverse, List.reverse_reverse] at hreverse
        exact hreverse.symm
      cases hrest : cs.reverse.dropWhile (· != d) with
      | nil =>
          rw [hrest] at hcs
          exact .inl hcs
      | cons c rest =>
          have hc : c = d := by
            have hnot := List.head?_dropWhile_not (· != d) cs.reverse
            rw [hrest] at hnot
            simpa using hnot
          rw [hrest, hc] at hcs
          exact .inr ⟨rest.reverse, by simpa using hcs⟩
  · rintro ⟨hd, rfl | ⟨front, rfl⟩⟩
    · rw [List.takeWhile_eq_self_iff]
      intro c hc
      have hne : c ≠ d := fun heq => hd (heq ▸ List.mem_reverse.mp hc)
      simpa using hne
    · rw [List.reverse_append, List.reverse_cons, List.append_assoc, List.takeWhile_append_of_pos]
      · simp
      · intro c hc
        have hne : c ≠ d := fun heq => hd (heq ▸ List.mem_reverse.mp hc)
        simpa using hne

/-- `simple` stands after the last dot of `name`, or is all of a name without a dot. -/
def Name.EndsIn (name simple : String) : Prop :=
  '.' ∉ simple.toList ∧ (name = simple ∨ ∃ front, name = front ++ "." ++ simple)

/-- **The last segment** of a name is the one that it ends in. -/
theorem Name.lastSegment_eq_iff {name simple : String} :
    lastSegment name = simple ↔ EndsIn name simple := by
  rw [lastSegment, ← String.toList_inj, String.toList_ofList, Text.afterLast_eq_iff, EndsIn,
    String.toList_inj]
  refine and_congr_right fun _ => or_congr_right ⟨?_, ?_⟩
  · rintro ⟨front, hfront⟩
    refine ⟨String.ofList front, String.toList_inj.mp ?_⟩
    simp [hfront]
  · rintro ⟨front, rfl⟩
    exact ⟨front.toList, by simp⟩

instance (name simple : String) : Decidable (Name.EndsIn name simple) :=
  decidable_of_iff _ Name.lastSegment_eq_iff

/-- A number that is not below the size has no node. -/
theorem Graph.not_contains_of_le {g : Graph} {id : NodeId} (h : g.size ≤ id) :
    ¬ g.contains id = true := by
  rw [contains_iff]
  exact Nat.not_lt.mpr h

namespace Store

/-! ### Histories -/

/-- What has been written since the store was last cleared: the names of the nodes and the edges,
each in the order of creation. -/
structure History where
  names : List String := []
  edges : List Edge := []

namespace History

/-- The history with one call more. An edge is added only between nodes that are there. -/
def add (h : History) : Write → History
  | .createNode name _ => { h with names := h.names ++ [name] }
  | .addLabels _ _ => h
  | .setProperty _ _ _ => h
  | .createEdge source relation target =>
      if source < h.names.length ∧ target < h.names.length then
        { h with edges := h.edges ++ [{ source, relation, target }] }
      else h
  | .clear => {}

/-- The history of some calls. -/
def of (calls : List Write) : History := calls.foldl add {}

/-- The numbers of the nodes whose names meet a condition, in the order of creation. -/
def idsWhere (h : History) (p : String → Prop) [DecidablePred p] : List NodeId :=
  (List.range h.names.length).filter fun id => h.names[id]?.any (p ·)

/-- The history that a graph shows. -/
def shownBy (g : Graph) : History where
  names := g.entities.toList.map (·.name)
  edges := g.edges.toList

@[simp] theorem length_names (g : Graph) : (shownBy g).names.length = g.size := by
  simp [shownBy, Graph.size]

/-- The names of a history are those of the nodes. -/
theorem names_of_lt {g : Graph} {id : NodeId} (h : id < g.size) :
    (shownBy g).names[id]? = some (g.entity id).name := by
  rw [shownBy, List.getElem?_map, Array.getElem?_toList, Graph.getElem?_of_lt h]
  rfl

/-- Nodes are found by their names in the history as in the graph. -/
theorem idsWhere_shownBy (g : Graph) (p : String → Prop) [DecidablePred p] :
    (shownBy g).idsWhere p = g.idsWhere fun e => p e.name := by
  rw [idsWhere, length_names, Graph.idsWhere]
  refine List.filter_congr fun id hid => ?_
  rw [names_of_lt (List.mem_range.mp hid)]
  rfl

/-- An update leaves the history alone: it keeps names and edges. -/
theorem shownBy_update (g : Graph) (id : NodeId) (f : Entity → Entity)
    (hf : ∀ e, (f e).name = e.name) : shownBy (g.update id f hf) = shownBy g := by
  simp only [shownBy, Graph.update, Graph.map_modify hf]

end History

/-! ### Calls that fail -/

variable {α : Type} {g : Graph}

/-- On an available store that holds `g`, the calls `x` fail with `e` and change nothing. -/
def Refuses (x : StoreM α) (g : Graph) (e : StoreError) : Prop :=
  x { graph := g } = (.error e, { graph := g })

theorem Refuses.call {f : Graph → Except StoreError (α × Graph)} {e : StoreError}
    (h : f g = .error e) : Refuses (call f) g e := by
  simp [Refuses, Store.call, Outage.gate, h]

theorem Refuses.read {f : Graph → Except StoreError α} {e : StoreError} (h : f g = .error e) :
    Refuses (read f) g e := by
  apply Refuses.call
  rw [h]
  rfl

theorem Refuses.write {id : NodeId} {f : Graph → Option Graph} (h : f g = none) :
    Refuses (write id f) g (.unknownNode id) := by
  apply Refuses.call
  rw [h]

/-- What is asked of a node that does not exist is refused. -/
theorem known_of_le {id : NodeId} (h : g.size ≤ id) (a : α) :
    known g id a = .error (.unknownNode id) := by
  rw [known, if_neg (Graph.not_contains_of_le h)]

theorem refuses_node {id : NodeId} (h : g.size ≤ id) : Refuses (node id) g (.unknownNode id) := by
  apply Refuses.read
  have hnone : g.node? id = none := by
    rw [Graph.node?, Array.getElem?_eq_none h, Option.map_none]
  rw [hnone]

theorem refuses_addLabels {id : NodeId} (h : g.size ≤ id) (ls : List Label) :
    Refuses (addLabels id ls) g (.unknownNode id) := by
  apply Refuses.write
  rw [Graph.addLabels?, if_neg (Graph.not_contains_of_le h)]

theorem refuses_setProperty {id : NodeId} (h : g.size ≤ id) (p : Property) (v : Value) :
    Refuses (setProperty id p v) g (.unknownNode id) := by
  apply Refuses.write
  rw [Graph.setProperty?, if_neg (Graph.not_contains_of_le h)]

/-- The source of an edge is looked for first. -/
theorem refuses_createEdge_source {source : NodeId} (hs : g.size ≤ source) (relation : Relation)
    (target : NodeId) :
    Refuses (createEdge source relation target) g (.unknownNode source) := by
  apply Refuses.call
  rw [known_of_le hs]
  rfl

theorem refuses_createEdge_target {source target : NodeId} (hs : source < g.size)
    (relation : Relation) (ht : g.size ≤ target) :
    Refuses (createEdge source relation target) g (.unknownNode target) := by
  apply Refuses.call
  rw [known_of_lt hs, known_of_le ht]
  rfl

/-- Clearing leaves the empty graph. -/
theorem gives_clear : Gives clear g () .empty := Gives.call rfl

/-! ### Writes and the nodes they name -/

namespace Write

/-- The call, without its answer. -/
def run : Write → StoreM Unit
  | createNode name labels => (fun _ => ()) <$> Store.createNode name labels
  | addLabels id labels => Store.addLabels id labels
  | setProperty id p v => Store.setProperty id p v
  | createEdge source relation target => Store.createEdge source relation target
  | clear => Store.clear

/-- The nodes that a call names, in the order in which they are looked for. -/
def named : Write → List NodeId
  | createNode _ _ => []
  | addLabels id _ => [id]
  | setProperty id _ _ => [id]
  | createEdge source _ target => [source, target]
  | clear => []

/-- Leaving out the answer does not change what is left. -/
theorem after_eq_run (w : Write) (s : Store) : w.after s = (w.run s).2 := by
  cases w with
  | createNode name labels =>
      rw [run, ← bind_pure_comp]
      let discard : NodeId → StoreM Unit := fun _ => pure ()
      show (Store.createNode name labels s).2 =
        (ExceptT.bindCont discard (Store.createNode name labels s).1
          (Store.createNode name labels s).2).2
      cases (Store.createNode name labels s).1 <;> rfl
  | _ => rfl

/-- A call that names only nodes that exist succeeds, and adds to the history. -/
theorem gives_run (w : Write) (h : ∀ id ∈ w.named, id < g.size) :
    ∃ g', Gives w.run g () g' ∧ History.shownBy g' = (History.shownBy g).add w := by
  cases w with
  | createNode name labels =>
      refine ⟨_, (gives_createNode name labels).map _, ?_⟩
      simp [History.shownBy, History.add, Graph.addNode]
  | addLabels id labels =>
      exact ⟨_, gives_addLabels (h id List.mem_cons_self) labels, History.shownBy_update ..⟩
  | setProperty id p v =>
      exact ⟨_, gives_setProperty (h id List.mem_cons_self) p v, History.shownBy_update ..⟩
  | createEdge source relation target =>
      have hsource := h source List.mem_cons_self
      have htarget := h target (List.mem_cons_of_mem _ List.mem_cons_self)
      refine ⟨_, gives_createEdge hsource htarget relation, ?_⟩
      rw [History.add, History.length_names, if_pos ⟨hsource, htarget⟩]
      simp [History.shownBy, Graph.addEdge]
  | clear => exact ⟨_, gives_clear, rfl⟩

/-- A call that names a node that does not exist fails with the first such node. It changes nothing,
and the history does not record it. -/
theorem refuses_run {w : Write} {id : NodeId} (h : w.named.find? (g.size ≤ ·) = some id) :
    Refuses w.run g (.unknownNode id) ∧ (History.shownBy g).add w = History.shownBy g := by
  have hid : g.size ≤ id := by simpa using List.find?_some h
  have hmem : id ∈ w.named := List.mem_of_find?_eq_some h
  cases w with
  | createNode name labels => cases hmem
  | addLabels id' labels =>
      obtain rfl : id = id' := List.mem_singleton.mp hmem
      exact ⟨refuses_addLabels hid labels, rfl⟩
  | setProperty id' p v =>
      obtain rfl : id = id' := List.mem_singleton.mp hmem
      exact ⟨refuses_setProperty hid p v, rfl⟩
  | createEdge source relation target =>
      rw [History.add, History.length_names]
      by_cases hs : source < g.size
      · obtain rfl : id = target := by
          rcases List.mem_cons.mp hmem with rfl | hmem
          · exact absurd hid (Nat.not_le.mpr hs)
          · exact List.mem_singleton.mp hmem
        exact ⟨refuses_createEdge_target hs relation hid,
          if_neg fun hboth => Nat.not_le.mpr hboth.2 hid⟩
      · obtain rfl : source = id := by
          simpa [named, Nat.le_of_not_lt hs] using h
        exact ⟨refuses_createEdge_source hid relation target, if_neg fun hboth => hs hboth.1⟩
  | clear => cases hmem

/-- What a call leaves shows the history with the call. -/
theorem exists_after (w : Write) (g : Graph) :
    ∃ g', w.after { graph := g } = { graph := g' } ∧
      History.shownBy g' = (History.shownBy g).add w := by
  cases hnamed : w.named.find? (g.size ≤ ·) with
  | some id =>
      obtain ⟨hrefused, hadd⟩ := refuses_run hnamed
      exact ⟨g, by rw [after_eq_run, hrefused], hadd.symm⟩
  | none =>
      obtain ⟨g', hgives, hadd⟩ := gives_run w fun id hid => by
        simpa using List.find?_eq_none.mp hnamed id hid
      exact ⟨g', by rw [after_eq_run, hgives], hadd⟩

end Write

/-- **The graph of a store shows the history of the calls**, those that fail included. -/
theorem history_after (calls : List Write) :
    History.shownBy (after calls).graph = History.of calls := by
  have hrun : ∀ g : Graph, History.shownBy
      (calls.foldl (fun s w => w.after s) ({ graph := g } : Store)).graph =
        calls.foldl History.add (History.shownBy g) := by
    induction calls with
    | nil => exact fun g => rfl
    | cons w calls ih =>
        intro g
        obtain ⟨g', hafter, hadd⟩ := w.exists_after g
        rw [List.foldl_cons, List.foldl_cons, hafter, ih g', hadd]
  exact hrun .empty

/-! ### Answers -/

/-- A store answers calls, and refuses them, as a history says. -/
structure Reflects (s : Store) (h : History) : Prop where
  /-- Nodes are numbered in the order of creation, and each has the name it was created with. -/
  nodeIds : nodeIds s = (.ok (List.range h.names.length), s)
  created : ∀ name labels, (createNode name labels s).1 = .ok h.names.length
  node : ∀ id name, h.names[id]? = some name →
    ∃ n : Node, node id s = (.ok n, s) ∧ n.id = id ∧ n.name = name
  /-- The nodes with a name, and those with a last segment, are found in the order of creation. -/
  idsNamed : ∀ name, idsNamed name s = (.ok (h.idsWhere (· = name)), s)
  idsWithLastSegment : ∀ simple,
    idsWithLastSegment simple s = (.ok (h.idsWhere (Name.EndsIn · simple)), s)
  /-- The edges are there in the order of creation, and so are those at either end of a node. -/
  edges : edges s = (.ok h.edges, s)
  edgesFrom : ∀ id < h.names.length,
    edgesFrom id s = (.ok (h.edges.filter (·.source = id)), s)
  edgesInto : ∀ id < h.names.length,
    edgesInto id s = (.ok (h.edges.filter (·.target = id)), s)
  /-- The edges at a node are sorted by their numbers, and in whatever order they are met, this
  gives the order of creation. -/
  sorted : ∀ (p : Edge → Bool) (es : List (Edge × Nat)), es.Perm (s.graph.incident p) →
    Graph.inOrder es = h.edges.filter p
  /-- Both ends of an edge exist. -/
  ends : ∀ e ∈ h.edges, e.source < h.names.length ∧ e.target < h.names.length
  /-- A call that changes the graph succeeds if all nodes that it names exist. Otherwise it fails
  with the first of them that does not, and the store stays as it is. -/
  accepts : ∀ w : Write, (∀ id ∈ w.named, id < h.names.length) → (w.run s).1 = .ok ()
  refuses : ∀ (w : Write) (id : NodeId), w.named.find? (h.names.length ≤ ·) = some id →
    w.run s = (.error (.unknownNode id), s)
  /-- So does a call that reads. -/
  reaches : ∀ id < h.names.length, ∀ r, ∃ ids, reachable id r s = (.ok ids, s)
  unknown : ∀ id, h.names.length ≤ id →
    Store.node id s = (.error (.unknownNode id), s) ∧
    Store.edgesFrom id s = (.error (.unknownNode id), s) ∧
    Store.edgesInto id s = (.error (.unknownNode id), s) ∧
    ∀ r, reachable id r s = (.error (.unknownNode id), s)

/-- An available store reflects the history that its graph shows. -/
theorem reflects_shownBy (hg : g.Closed) :
    Reflects { graph := g } (History.shownBy g) := by
  have hlength : (History.shownBy g).names.length = g.size := History.length_names g
  constructor
  case nodeIds =>
    rw [hlength]
    exact Gives.read rfl
  case created =>
    intro name labels
    rw [hlength]
    exact congrArg Prod.fst (gives_createNode name labels)
  case node =>
    intro id name hname
    have hlt : id < g.size := hlength ▸ (List.getElem?_eq_some_iff.mp hname).1
    rw [History.names_of_lt hlt, Option.some.injEq] at hname
    exact ⟨g.nodeAt id, gives_node hlt, rfl, hname⟩
  case idsNamed =>
    intro name
    rw [History.idsWhere_shownBy]
    exact Session.gives_idsNamed name
  case idsWithLastSegment =>
    intro simple
    rw [History.idsWhere_shownBy]
    simp only [← Name.lastSegment_eq_iff]
    exact Gives.read (congrArg _ (g.idsWithLastSegment_eq simple))
  case edges => exact Gives.read rfl
  case edgesFrom =>
    intro id hid
    exact Gives.read ((known_of_lt (hlength ▸ hid) _).trans
      (congrArg Except.ok (g.edgesFrom_eq id)))
  case edgesInto =>
    intro id hid
    exact Gives.read ((known_of_lt (hlength ▸ hid) _).trans
      (congrArg Except.ok (g.edgesInto_eq id)))
  case sorted => exact fun p es hes => Graph.inOrder_of_perm hes
  case ends =>
    intro e he
    rw [hlength]
    exact hg e (Array.mem_toList_iff.mp he)
  case accepts =>
    intro w hnamed
    rw [hlength] at hnamed
    obtain ⟨g', hgives, -⟩ := w.gives_run hnamed
    exact congrArg Prod.fst hgives
  case refuses =>
    intro w id hid
    rw [hlength] at hid
    exact (Write.refuses_run hid).1
  case reaches =>
    intro id hid r
    exact ⟨_, Gives.read (known_of_lt (hlength ▸ hid) _)⟩
  case unknown =>
    intro id hid
    rw [hlength] at hid
    exact ⟨refuses_node hid, Refuses.read (known_of_le hid _), Refuses.read (known_of_le hid _),
      fun r => Refuses.read (known_of_le hid _)⟩

/-- **A store reflects its history**: whatever has been called on it, in any order, calls that have
failed included. -/
theorem after_reflects (calls : List Write) : Reflects (after calls) (History.of calls) := by
  rw [after_eq, ← history_after]
  exact reflects_shownBy (closed_after calls)

end Store

end Variability
