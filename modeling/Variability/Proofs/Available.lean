import Variability.Store.Session
import Variability.Proofs.Graph

/-!
# Programs on an available store

A store without outages is the plain graph: a program of store calls then takes a graph to an
answer and a graph, and no retry is ever made. `Store.Gives` says this of store calls and
`Session.Yields` of session programs, for every retry policy at once. Both are total: a program
that yields something has not failed.

## Main results

* `Store.Gives.bind`, `Session.Yields.bind`: programs in sequence.
* `Store.closed_foldl_after`: the graph of a store is closed, whatever has been called on it.
* `Store.after_eq`: an available store stays available, so it is its graph.
* `Session.Yields.perform`: an operation yields what its store calls give.
* `Session.Yields.forM`: a loop whose body turns the graph into `step` of it folds `step`.
* `Session.Yields.unique`: answer and graph are determined.
-/

namespace Variability

/-! ### Store calls -/

namespace Store

/-- On an available store that holds `g`, the calls `x` answer `a` and leave `g'`. -/
def Gives {α : Type} (x : StoreM α) (g : Graph) (a : α) (g' : Graph) : Prop :=
  x { graph := g } = (.ok a, { graph := g' })

variable {α β : Type} {g g₁ g₂ : Graph}

/-- Answering at once leaves the graph alone. -/
theorem Gives.pure (a : α) (g : Graph) : Gives (pure a) g a g := rfl

/-- Calls in sequence. -/
theorem Gives.bind {x : StoreM α} {f : α → StoreM β} {a : α} {b : β} (hx : Gives x g a g₁)
    (hf : Gives (f a) g₁ b g₂) : Gives (x >>= f) g b g₂ := by
  unfold Gives at *
  show ExceptT.bindCont f (x _).1 (x _).2 = _
  rw [hx]
  exact hf

/-- A function of an answer. -/
theorem Gives.map {x : StoreM α} {a : α} (hx : Gives x g a g₁) (f : α → β) :
    Gives (f <$> x) g (f a) g₁ := by
  rw [← bind_pure_comp]
  exact hx.bind (Gives.pure _ _)

/-- Calls for each member of a list, none of which changes the graph. -/
theorem Gives.mapM {f : α → StoreM β} {v : α → β} {xs : List α}
    (h : ∀ x ∈ xs, Gives (f x) g (v x) g) : Gives (xs.mapM f) g (xs.map v) g := by
  induction xs with
  | nil => exact Gives.pure _ _
  | cons x xs ih =>
      rw [List.mapM_cons]
      have hx := h x List.mem_cons_self
      have hxs := ih fun y hy => h y (List.mem_cons_of_mem _ hy)
      exact hx.bind (hxs.bind (Gives.pure _ _))

/-- A call answers what its function answers on the graph. -/
theorem Gives.call {f : Graph → Except StoreError (α × Graph)} {a : α}
    (h : f g = .ok (a, g₁)) : Gives (call f) g a g₁ := by
  simp [Gives, Store.call, Outage.gate, h]

/-- A reading call answers what its function answers, and changes nothing. -/
theorem Gives.read {f : Graph → Except StoreError α} {a : α} (h : f g = .ok a) :
    Gives (read f) g a g := by
  apply Gives.call
  rw [h]
  rfl

/-- A writing call leaves what its function makes of the graph. -/
theorem Gives.write {id : NodeId} {f : Graph → Option Graph} (h : f g = some g₁) :
    Gives (write id f) g () g₁ := by
  apply Gives.call
  rw [h]

/-- What is asked of a node that exists is answered. -/
theorem known_of_lt {id : NodeId} (h : id < g.size) (a : α) : known g id a = .ok a := by
  rw [known, if_pos (Graph.contains_iff.mpr h)]

/-- Reading a node that exists. -/
theorem gives_node {id : NodeId} (h : id < g.size) : Gives (node id) g (g.nodeAt id) g := by
  apply Gives.read
  rw [Graph.node?_of_lt h]

/-- Creating a node answers the next free number. -/
theorem gives_createNode (name : String) (labels : List Label) :
    Gives (createNode name labels) g g.size (g.addNode name labels) :=
  Gives.call rfl

/-- Labelling a node that exists. -/
theorem gives_addLabels {id : NodeId} (h : id < g.size) (ls : List Label) :
    Gives (addLabels id ls) g () (g.label id ls) :=
  Gives.write (Graph.addLabels?_of_lt h ls)

/-- Setting a property of a node that exists. -/
theorem gives_setProperty {id : NodeId} (h : id < g.size) (p : Property) (v : Value) :
    Gives (setProperty id p v) g () (g.put id p v) :=
  Gives.write (Graph.setProperty?_of_lt h p v)

/-- Adding an edge between nodes that exist. -/
theorem gives_createEdge {source target : NodeId} (hs : source < g.size) (ht : target < g.size)
    (relation : Relation) :
    Gives (createEdge source relation target) g () (g.addEdge source relation target) := by
  apply Gives.call
  rw [known_of_lt hs, known_of_lt ht]
  rfl

/-! ### Closed graphs -/

/-- The calls that can change the graph. -/
inductive Write where
  | createNode (name : String) (labels : List Label)
  | addLabels (id : NodeId) (labels : List Label)
  | setProperty (id : NodeId) (p : Property) (v : Value)
  | createEdge (source : NodeId) (relation : Relation) (target : NodeId)
  | clear

/-- The store after a call, whether the call succeeds, fails or is refused. -/
def Write.after : Write → Store → Store
  | createNode name labels, s => (Store.createNode name labels s).2
  | addLabels id labels, s => (Store.addLabels id labels s).2
  | setProperty id p v, s => (Store.setProperty id p v s).2
  | createEdge source relation target, s => (Store.createEdge source relation target s).2
  | clear, s => (Store.clear s).2

/-- A call keeps the graph closed if its effect does. -/
theorem closed_call {f : Graph → Except StoreError (α × Graph)}
    (hf : ∀ g a g', g.Closed → f g = .ok (a, g') → g'.Closed) {s : Store}
    (hs : s.graph.Closed) : (call f s).2.graph.Closed := by
  unfold call
  split
  · exact hs
  · split
    · rename_i hok
      exact hf _ _ _ hs hok
    · exact hs

/-- A call that names a node keeps the graph closed if what it makes of the graph is closed. -/
theorem closed_write {id : NodeId} {f : Graph → Option Graph}
    (hf : ∀ g g', g.Closed → f g = some g' → g'.Closed) {s : Store} (hs : s.graph.Closed) :
    (write id f s).2.graph.Closed := by
  refine closed_call (fun g _ g' hg hok => ?_) hs
  cases hfg : f g with
  | none =>
      rw [hfg] at hok
      cases hok
  | some g₁ =>
      rw [hfg] at hok
      cases hok
      exact hf g _ hg hfg

/-- What is answered about a node shows that it exists. -/
theorem lt_of_known {id : NodeId} {a b : α} (h : known g id a = .ok b) : id < g.size := by
  by_cases hid : g.contains id
  · exact Graph.contains_iff.mp hid
  · rw [known, if_neg hid] at h
    cases h

/-- An edge is added between nodes that exist, or not at all. -/
theorem closed_createEdge (source : NodeId) (relation : Relation) (target : NodeId) {s : Store}
    (hs : s.graph.Closed) : (createEdge source relation target s).2.graph.Closed := by
  refine closed_call (fun g _ g' hg hok => ?_) hs
  cases hsource : known g source () with
  | error e =>
      rw [hsource] at hok
      cases hok
  | ok _ =>
      cases htarget : known g target () with
      | error e =>
          rw [hsource, htarget] at hok
          cases hok
      | ok _ =>
          rw [hsource, htarget] at hok
          cases hok
          exact hg.addEdge relation (lt_of_known hsource) (lt_of_known htarget)

/-- A call keeps the graph closed, whether it succeeds, fails or is refused. -/
theorem Write.closed_after (w : Write) {s : Store} (hs : s.graph.Closed) :
    (w.after s).graph.Closed := by
  cases w with
  | createNode name labels =>
      refine closed_call (fun g _ g' hg hok => ?_) hs
      cases hok
      exact hg.addNode name labels
  | addLabels id labels =>
      refine closed_write (fun g g' hg hsome => ?_) hs
      obtain ⟨-, hsome⟩ := Option.ite_none_right_eq_some.mp hsome
      cases hsome
      exact hg.update id _
  | setProperty id p v =>
      refine closed_write (fun g g' hg hsome => ?_) hs
      obtain ⟨-, hsome⟩ := Option.ite_none_right_eq_some.mp hsome
      cases hsome
      exact hg.update id _
  | createEdge source relation target => exact closed_createEdge source relation target hs
  | clear =>
      refine closed_call (fun _ _ g' _ hok => ?_) hs
      cases hok
      exact Graph.closed_empty

/-- **Every store is closed**: whatever is called on an empty store, and whatever outages the
calls meet, no edge of its graph has an end that is not a node. -/
theorem closed_foldl_after (ws : List Write) (outages : List Outage) :
    (ws.foldl (fun s w => w.after s) ({ outages } : Store)).graph.Closed := by
  have hrun : ∀ s : Store, s.graph.Closed →
      (ws.foldl (fun s w => w.after s) s).graph.Closed := by
    induction ws with
    | nil => exact fun _ hs => hs
    | cons w ws ih => exact fun s hs => ih _ (w.closed_after hs)
  exact hrun _ Graph.closed_empty

/-! ### Available stores -/

/-- The available store after some calls, those that fail included. -/
def after (calls : List Write) : Store := calls.foldl (fun s w => w.after s) {}

/-- A call cannot make an available store unavailable. -/
theorem outages_call {α : Type} (f : Graph → Except StoreError (α × Graph)) {s : Store}
    (hs : s.outages = []) : (call f s).2.outages = [] := by
  unfold call
  rw [hs]
  dsimp only [Outage.gate]
  split
  · rfl
  · rfl

theorem Write.outages_after (w : Write) {s : Store} (hs : s.outages = []) :
    (w.after s).outages = [] := by
  cases w with
  | createNode => exact outages_call _ hs
  | addLabels => exact outages_call _ hs
  | setProperty => exact outages_call _ hs
  | createEdge => exact outages_call _ hs
  | clear => exact outages_call _ hs

theorem outages_after (calls : List Write) : (after calls).outages = [] := by
  have hrun : ∀ s : Store, s.outages = [] →
      (calls.foldl (fun s w => w.after s) s).outages = [] := by
    induction calls with
    | nil => exact fun _ hs => hs
    | cons w calls ih => exact fun s hs => ih _ (w.outages_after hs)
  exact hrun _ rfl

/-- An available store is its graph. -/
theorem after_eq (calls : List Write) : after calls = { graph := (after calls).graph } := by
  have h := outages_after calls
  cases hs : after calls with
  | mk graph outages =>
      rw [hs] at h
      rw [show outages = [] from h]

theorem closed_after (calls : List Write) : (after calls).graph.Closed :=
  closed_foldl_after calls []

end Store

/-! ### Session programs -/

namespace Session

/-- On an available store that holds `g`, the program `x` answers `a` and leaves `g'`, whatever
the retry policy. -/
def Yields {α : Type} (x : Session α) (g : Graph) (a : α) (g' : Graph) : Prop :=
  ∀ policy, x policy { graph := g } = (.ok a, { graph := g' })

variable {α β σ : Type} {g g₁ g₂ : Graph}

/-- Answer and graph are determined. -/
theorem Yields.unique {x : Session α} {a₁ a₂ : α} (h₁ : Yields x g a₁ g₁)
    (h₂ : Yields x g a₂ g₂) : a₁ = a₂ ∧ g₁ = g₂ := by
  have h : ((Except.ok a₁ : Except GraphError α), ({ graph := g₁ } : Store)) =
      (.ok a₂, { graph := g₂ }) := (h₁ {}).symm.trans (h₂ {})
  simpa only [Prod.mk.injEq, Except.ok.injEq, Store.mk.injEq, and_true] using h

/-- Answering at once leaves the graph alone. -/
theorem Yields.pure (a : α) (g : Graph) : Yields (pure a) g a g := fun _ => rfl

/-- Programs in sequence. -/
theorem Yields.bind {x : Session α} {f : α → Session β} {a : α} {b : β} (hx : Yields x g a g₁)
    (hf : Yields (f a) g₁ b g₂) : Yields (x >>= f) g b g₂ := by
  intro policy
  show ExceptT.bindCont (fun a => f a policy) (x policy _).1 (x policy _).2 = _
  rw [hx policy]
  exact hf policy

/-- A program followed by an answer that is computed from its answer. -/
theorem Yields.bind_pure {x : Session α} {a : α} (hx : Yields x g a g₁) (f : α → β) :
    Yields (x >>= fun a => Pure.pure (f a)) g (f a) g₁ :=
  hx.bind (Yields.pure _ _)

/-- An operation yields what its store calls give: the first attempt succeeds. -/
theorem Yields.perform {operation : Operation} {calls : StoreM α} {a : α}
    (h : Store.Gives calls g a g₁) : Yields (perform operation calls) g a g₁ := by
  intro policy
  have first : ∀ total left,
      RetryPolicy.attempt operation total calls left { graph := g } =
        (.ok a, { graph := g₁ }) := by
    intro total left
    unfold Store.Gives at h
    cases left <;> simp [RetryPolicy.attempt, h]
  exact first _ _

/-- A loop whose body, on graphs with the invariant `I`, turns the graph into `step` of it. -/
theorem Yields.forM {xs : List β} {f : β → Session Unit} {step : Graph → β → Graph}
    (I : Graph → Prop)
    (hf : ∀ x ∈ xs, ∀ h, I h → Yields (f x) h () (step h x) ∧ I (step h x)) (hg : I g) :
    Yields (xs.forM f) g () (xs.foldl step g) := by
  induction xs generalizing g with
  | nil => exact Yields.pure _ _
  | cons x xs ih =>
      obtain ⟨hx, hI⟩ := hf x List.mem_cons_self g hg
      exact hx.bind (ih (fun y hy => hf y (List.mem_cons_of_mem _ hy)) hI)

/-- A function of an answer. -/
theorem Yields.map {x : Session α} {a : α} (hx : Yields x g a g₁) (f : α → β) :
    Yields (f <$> x) g (f a) g₁ := by
  rw [← bind_pure_comp]
  exact hx.bind_pure f

/-- A program for each member of a list, none of which changes the graph. -/
theorem Yields.mapM {f : α → Session β} {v : α → β} {xs : List α}
    (h : ∀ x ∈ xs, Yields (f x) g (v x) g) : Yields (xs.mapM f) g (xs.map v) g := by
  induction xs with
  | nil => exact Yields.pure _ _
  | cons x xs ih =>
      rw [List.mapM_cons]
      have hx := h x List.mem_cons_self
      have hxs := ih fun y hy => h y (List.mem_cons_of_mem _ hy)
      exact hx.bind (hxs.bind (Yields.pure _ _))

/-- A loop that skips the members without a condition is the loop over the others. -/
theorem forM_ite (xs : List β) (c : β → Prop) [DecidablePred c] (f : β → Session Unit) :
    (xs.forM fun x => if c x then f x else Pure.pure ()) =
      (xs.filter fun x => decide (c x)).forM f := by
  induction xs with
  | nil => rfl
  | cons x xs ih =>
      by_cases hx : c x
      · rw [List.filter_cons_of_pos (by simpa using hx)]
        simp only [List.forM, hx, if_true, ih]
      · rw [List.filter_cons_of_neg (by simpa using hx)]
        simp only [List.forM, hx, ih]
        rfl

/-- Labelling a node that exists. -/
theorem yields_addLabel {id : NodeId} (h : id < g.size) (l : Label) :
    Yields (addLabel id l) g () (g.label id [l]) :=
  Yields.perform (Store.gives_addLabels h [l])

/-- Setting a property of a node that exists. -/
theorem yields_setProperty {id : NodeId} (h : id < g.size) (p : Property) (v : Value) :
    Yields (setProperty id p v) g () (g.put id p v) :=
  Yields.perform (Store.gives_setProperty h p v)

/-- Adding an edge between nodes that exist. -/
theorem yields_link {source target : NodeId} (hs : source < g.size) (ht : target < g.size)
    (relation : Relation) :
    Yields (link source target relation) g () (g.addEdge source relation target) :=
  Yields.perform (Store.gives_createEdge hs ht relation)

/-- Labelling each of some nodes that exist. -/
theorem yields_labelEach (xs : List β) (pick : β → NodeId) (l : Label)
    (h : ∀ x ∈ xs, pick x < g.size) :
    Yields (xs.forM fun x => addLabel (pick x) l) g () (g.labelAll l (xs.map pick)) := by
  rw [Graph.labelAll, List.foldl_map]
  refine Yields.forM (fun h => h.size = g.size) (fun x hx h' hsize => ⟨?_, ?_⟩) rfl
  · exact yields_addLabel (hsize ▸ h x hx) l
  · rw [Graph.size_label, hsize]

/-- Setting a property of each of some nodes that exist. -/
theorem yields_putEach (xs : List β) (pick : β → NodeId) (p : Property) (v : NodeId → Value)
    (h : ∀ x ∈ xs, pick x < g.size) :
    Yields (xs.forM fun x => setProperty (pick x) p (v (pick x))) g ()
      (g.putAll p v (xs.map pick)) := by
  rw [Graph.putAll, List.foldl_map]
  refine Yields.forM (fun h => h.size = g.size) (fun x hx h' hsize => ⟨?_, ?_⟩) rfl
  · exact yields_setProperty (hsize ▸ h x hx) p _
  · rw [Graph.size_put, hsize]

end Session

end Variability
