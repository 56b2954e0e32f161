import Variability.Proofs.Queries

/-!
# Retried operations

An operation that changes the graph is a program of store calls, and a retry starts the program
again on what the attempt before has left. A refused call changes nothing, but the calls before it
may have written already. So a retried operation has the effect of one undisturbed run as long as
no refused attempt has written (`GraphWrite.Interrupted`), and after that only if what is written
twice is as good as written once (`GraphWrite.Repeatable`).

Creating a node is not repeatable: the node is read back after it was created, and a refusal of
that call alone leaves one node for every attempt. Asking for a node is repeatable only if it was
there before, or if the labels for a match add nothing to those for a creation: the second attempt
finds what the first one has created.

A program of store calls is treated by what one attempt can lead to (`Store.Tries`): the answer of
an undisturbed run, a failure that no retry can cure, or a refusal that leaves one of a set of
graphs.

## Main results

* `Store.Tries.bind`: attempts at programs in sequence.
* `RetryPolicy.attempt_induction`: what holds of every attempt that succeeds holds of the retried
  program.
* `GraphWrite.exactlyOnce_iff`: when a retried operation has the effect of one undisturbed run.
-/

namespace Variability

/-! ### One attempt -/

namespace Store

variable {α β : Type} {g : Graph}

/-- On every store that holds `g`, whatever its outages, the calls `x` answer what they answer on an
available store, fail for good, or are refused and leave a graph in `P`. -/
def Tries (x : StoreM α) (g : Graph) (P : Graph → Prop) : Prop :=
  ∀ outages,
    (∃ a g' outages', x ⟨g, outages⟩ = (.ok a, ⟨g', outages'⟩) ∧ Gives x g a g') ∨
    (∃ e s', x ⟨g, outages⟩ = (.error e, s') ∧ e.isTransient = false) ∨
    ∃ e s', x ⟨g, outages⟩ = (.error e, s') ∧ e.isTransient = true ∧ P s'.graph

namespace Tries

variable {P : Graph → Prop}

theorem pure (a : α) : Tries (Pure.pure a) g P :=
  fun outages => .inl ⟨a, g, outages, rfl, Gives.pure a g⟩

/-- One call is refused before it changes anything. -/
theorem call {f : Graph → Except StoreError (α × Graph)} (hP : P g)
    (hf : ∀ e, f g = .error e → e.isTransient = false) : Tries (Store.call f) g P := by
  intro outages
  unfold Store.call
  rcases Outage.gate outages with ⟨_ | why, outages'⟩
  · cases hfg : f g with
    | ok p =>
        obtain ⟨a, g'⟩ := p
        refine .inl ⟨a, g', outages', rfl, Gives.call hfg⟩
    | error e => exact .inr (.inl ⟨e, ⟨g, outages'⟩, rfl, hf e hfg⟩)
  · exact .inr (.inr ⟨.unavailable why, ⟨g, outages'⟩, rfl, rfl, hP⟩)

/-- Calls in sequence: the second part is refused on a graph that the first part has left. -/
theorem bind {x : StoreM α} {f : α → StoreM β} (hx : Tries x g P)
    (hf : ∀ a g', Gives x g a g' → Tries (f a) g' P) : Tries (x >>= f) g P := by
  intro outages
  have hrun : (x >>= f) ⟨g, outages⟩ =
      ExceptT.bindCont f (x ⟨g, outages⟩).1 (x ⟨g, outages⟩).2 := rfl
  rcases hx outages with ⟨a, g', outages', hok, hgives⟩ | ⟨e, s', herror, he⟩ |
    ⟨e, s', herror, he, hP⟩
  · have hsecond : (x >>= f) ⟨g, outages⟩ = f a ⟨g', outages'⟩ := by
      rw [hrun, hok]
      rfl
    rw [hsecond]
    rcases hf a g' hgives outages' with ⟨b, g'', outages'', hok', hgives'⟩ | hfail | hrefused
    · exact .inl ⟨b, g'', outages'', hok', hgives.bind hgives'⟩
    · exact .inr (.inl hfail)
    · exact .inr (.inr hrefused)
  · exact .inr (.inl ⟨e, s', by rw [hrun, herror]; rfl, he⟩)
  · exact .inr (.inr ⟨e, s', by rw [hrun, herror]; rfl, he, hP⟩)

/-- A reading call. -/
theorem read {f : Graph → Except StoreError α} (hP : P g)
    (hf : ∀ e, f g = .error e → e.isTransient = false) : Tries (Store.read f) g P := by
  refine call hP fun e he => ?_
  cases hfg : f g with
  | ok a =>
      rw [hfg] at he
      cases he
  | error e' =>
      rw [hfg] at he
      cases he
      exact hf e hfg

/-- A call that names a node. -/
theorem write {id : NodeId} {f : Graph → Option Graph} (hP : P g) :
    Tries (Store.write id f) g P := by
  refine call hP fun e he => ?_
  cases hfg : f g with
  | none =>
      rw [hfg] at he
      cases he
      rfl
  | some g' =>
      rw [hfg] at he
      cases he

end Tries

variable {P : Graph → Prop}

theorem Tries.mono {x : StoreM α} {Q : Graph → Prop} (hx : Tries x g P) (h : ∀ g, P g → Q g) :
    Tries x g Q := by
  intro outages
  rcases hx outages with hok | hfail | ⟨e, s', herror, he, hP⟩
  · exact .inl hok
  · exact .inr (.inl hfail)
  · exact .inr (.inr ⟨e, s', herror, he, h _ hP⟩)

/-- Calls that succeed have answered as on an available store. -/
theorem Tries.gives {x : StoreM α} {s s' : Store} {a : α} (hx : Tries x s.graph P)
    (h : x s = (.ok a, s')) : Gives x s.graph a s'.graph := by
  rcases hx s.outages with ⟨b, g', outages', hok, hgives⟩ | ⟨e, s₁, herror, -⟩ |
    ⟨e, s₁, herror, -⟩
  · rw [h] at hok
    cases hok
    exact hgives
  · rw [h] at herror
    cases herror
  · rw [h] at herror
    cases herror

/-- Calls that are refused leave a graph in `P`. -/
theorem Tries.left {x : StoreM α} {s s' : Store} {e : StoreError} (hx : Tries x s.graph P)
    (h : x s = (.error e, s')) (he : e.isTransient = true) : P s'.graph := by
  rcases hx s.outages with ⟨b, g', outages', hok, -⟩ | ⟨e₁, s₁, herror, he₁⟩ |
    ⟨e₁, s₁, herror, -, hP⟩
  · rw [h] at hok
    cases hok
  · rw [h] at herror
    cases herror
    rw [he] at he₁
    cases he₁
  · rw [h] at herror
    cases herror
    exact hP

/-- Answer and graph are determined. -/
theorem Gives.unique {x : StoreM α} {a₁ a₂ : α} {g₁ g₂ : Graph} (h₁ : Gives x g a₁ g₁)
    (h₂ : Gives x g a₂ g₂) : a₁ = a₂ ∧ g₁ = g₂ := by
  have h : ((Except.ok a₁ : Except StoreError α), ({ graph := g₁ } : Store)) =
      (.ok a₂, { graph := g₂ }) := h₁.symm.trans h₂
  simpa only [Prod.mk.injEq, Except.ok.injEq, Store.mk.injEq, and_true] using h

/-- Reading leaves the graph alone. -/
theorem Gives.of_read {f : Graph → Except StoreError α} {a : α} {g' : Graph}
    (h : Gives (Store.read f) g a g') : g = g' ∧ f g = .ok a := by
  cases hfg : f g with
  | ok b =>
      obtain ⟨rfl, rfl⟩ := (Gives.read hfg).unique h
      exact ⟨rfl, rfl⟩
  | error e =>
      simp only [Gives, Store.read, Store.call, Outage.gate, hfg, Except.map] at h
      cases h

/-- What is asked of an unknown node fails for good. -/
theorem isTransient_of_known {id : NodeId} {a : α} {e : StoreError}
    (h : known g id a = .error e) : e.isTransient = false := by
  unfold known at h
  split at h
  · cases h
  · cases h
    rfl

theorem tries_node (hP : P g) (id : NodeId) : Tries (node id) g P := by
  refine Tries.read hP fun e he => ?_
  split at he
  · cases he
  · cases he
    rfl

theorem tries_createNode (hP : P g) (name : String) (labels : List Label) :
    Tries (createNode name labels) g P :=
  Tries.call hP fun _ he => by cases he

theorem tries_addLabels (hP : P g) (id : NodeId) (labels : List Label) :
    Tries (addLabels id labels) g P :=
  Tries.write hP

theorem tries_setProperty (hP : P g) (id : NodeId) (p : Property) (v : Value) :
    Tries (setProperty id p v) g P :=
  Tries.write hP

theorem tries_idsNamed (hP : P g) (name : String) : Tries (idsNamed name) g P :=
  Tries.read hP fun _ he => by cases he

theorem tries_createEdge (hP : P g) (source : NodeId) (relation : Relation) (target : NodeId) :
    Tries (createEdge source relation target) g P := by
  refine Tries.call hP fun e he => ?_
  cases hsource : known g source () with
  | error e' =>
      rw [hsource] at he
      cases he
      exact isTransient_of_known hsource
  | ok _ =>
      cases htarget : known g target () with
      | error e' =>
          rw [hsource, htarget] at he
          cases he
          exact isTransient_of_known htarget
      | ok _ =>
          rw [hsource, htarget] at he
          cases he

theorem tries_clear (hP : P g) : Tries clear g P := Tries.call hP fun _ he => by cases he

/-- The search for a node only reads. -/
theorem tries_firstNode (hP : P g) (p : Node → Bool) (ids : List NodeId) :
    Tries (Session.firstNode p ids) g P := by
  induction ids with
  | nil => exact Tries.pure _
  | cons id ids ih =>
      refine (tries_node hP id).bind fun n g' hgives => ?_
      obtain rfl : g = g' := hgives.of_read.1
      split
      · exact Tries.pure _
      · exact ih

/-- The search for a node with a name only reads, and the rest goes on from what it finds. -/
theorem tries_firstNamed {f : Option Node → StoreM α} (hP : P g) (name : String)
    (d : Entity → Bool) (hf : Tries (f (g.firstWhere fun e => e.name == name && d e)) g P) :
    Tries (do
      let ids ← idsNamed name
      let found ← Session.firstNode (fun n => d n.toEntity) ids
      f found) g P := by
  refine (tries_idsNamed hP name).bind fun ids g' hids => ?_
  obtain rfl : g = g' := hids.of_read.1
  refine (tries_firstNode hP _ ids).bind fun found g' hfound => ?_
  obtain ⟨rfl, rfl⟩ := (Session.gives_firstNamed name d).unique (hids.bind hfound)
  exact hf

/-! ### Attempts in a row -/

/-- One of the first `n` attempts is refused after it has changed the graph. -/
def Interrupted (x : StoreM α) : Nat → Store → Prop
  | 0, _ => False
  | n + 1, s => ∃ e s', x s = (.error e, s') ∧ e.isTransient = true ∧
      (s'.graph ≠ s.graph ∨ Interrupted x n s')

end Store

namespace RetryPolicy

open Store

variable {α : Type} {x : StoreM α} {operation : Operation} {total left : Nat} {s s' : Store} {a : α}

/-- Retried calls that succeed have succeeded at once, or after a refused attempt. -/
theorem attempt_cases (h : attempt operation total x left s = (.ok a, s')) :
    x s = (.ok a, s') ∨
      ∃ e s₁ left', left = left' + 1 ∧ x s = (.error e, s₁) ∧ e.isTransient = true ∧
        attempt operation total x left' s₁ = (.ok a, s') := by
  rcases hx : x s with ⟨_ | b, s₁⟩
  · rename_i e
    cases left with
    | zero =>
        simp only [attempt, hx] at h
        split at h <;> cases h
    | succ left' =>
        simp only [attempt, hx] at h
        split at h
        · rename_i he
          exact .inr ⟨e, s₁, left', rfl, rfl, he, h⟩
        · cases h
  · have hfirst : attempt operation total x left s = (.ok b, s₁) := by
      cases left <;> simp [attempt, hx]
    rw [hfirst] at h
    cases h
    exact .inl rfl

/-- If a refused attempt leaves a graph in `I` whenever it starts from one, retried calls answer
what they answer on some graph in `I`. -/
theorem attempt_induction {I : Graph → Prop} (hI : ∀ g, I g → Tries x g I) (hs : I s.graph)
    (h : attempt operation total x left s = (.ok a, s')) :
    ∃ g, I g ∧ Gives x g a s'.graph := by
  induction left generalizing s with
  | zero =>
      rcases attempt_cases h with hok | ⟨_, _, left', hleft, -⟩
      · exact ⟨s.graph, hs, (hI _ hs).gives hok⟩
      · exact absurd hleft (Nat.succ_ne_zero left').symm
  | succ left ih =>
      rcases attempt_cases h with hok | ⟨e, s₁, left', hleft, hrefused, he, hrest⟩
      · exact ⟨s.graph, hs, (hI _ hs).gives hok⟩
      · obtain rfl : left = left' := Nat.succ.inj hleft
        exact ih ((hI _ hs).left hrefused he) hrest

/-- Retried calls answer what they answer undisturbed, unless an attempt was interrupted. -/
theorem gives_of_not_interrupted {P : Graph → Prop} (hx : Tries x s.graph P)
    (hnot : ¬ Interrupted x (left + 1) s)
    (h : attempt operation total x left s = (.ok a, s')) : Gives x s.graph a s'.graph := by
  induction left generalizing s with
  | zero =>
      rcases attempt_cases h with hok | ⟨_, _, left', hleft, -⟩
      · exact hx.gives hok
      · exact absurd hleft (Nat.succ_ne_zero left').symm
  | succ left ih =>
      rcases attempt_cases h with hok | ⟨e, s₁, left', hleft, hrefused, he, hrest⟩
      · exact hx.gives hok
      · obtain rfl : left = left' := Nat.succ.inj hleft
        have hsame : s₁.graph = s.graph :=
          Decidable.of_not_not fun hne => hnot ⟨e, s₁, hrefused, he, .inl hne⟩
        have hlater : ¬ Interrupted x (left + 1) s₁ :=
          fun hint => hnot ⟨e, s₁, hrefused, he, .inr hint⟩
        rw [← hsame]
        exact ih (hsame ▸ hx) hlater hrest

/-- Retried calls of which an attempt was interrupted go on from another graph. -/
theorem exists_of_interrupted {P : Graph → Prop} (hx : Tries x s.graph P)
    (hint : Interrupted x (left + 1) s)
    (h : attempt operation total x left s = (.ok a, s')) :
    ∃ left' s₁, s₁.graph ≠ s.graph ∧ P s₁.graph ∧
      attempt operation total x left' s₁ = (.ok a, s') := by
  induction left generalizing s with
  | zero =>
      obtain ⟨e, s₁, hrefused, he, -⟩ := hint
      rcases attempt_cases h with hok | ⟨_, _, left', hleft, -⟩
      · rw [hrefused] at hok
        cases hok
      · exact absurd hleft (Nat.succ_ne_zero left').symm
  | succ left ih =>
      obtain ⟨e, s₁, hrefused, he, hcase⟩ := hint
      rcases attempt_cases h with hok | ⟨e', s₁', left', hleft, hrefused', he', hrest⟩
      · rw [hrefused] at hok
        cases hok
      · obtain rfl : left = left' := Nat.succ.inj hleft
        rw [hrefused] at hrefused'
        cases hrefused'
        by_cases hsame : s₁.graph = s.graph
        · have hlater : Interrupted x (left + 1) s₁ := hcase.resolve_left (· hsame)
          obtain ⟨left'', s₂, hne, hP, hattempt⟩ := ih (hsame ▸ hx) hlater hrest
          exact ⟨left'', s₂, hsame ▸ hne, hP, hattempt⟩
        · exact ⟨left, s₁, hsame, hx.left hrefused he, hrest⟩

/-- Calls that are only refused before they change anything are never interrupted. -/
theorem not_interrupted (hx : ∀ g, Tries x g (Eq g)) (n : Nat) (s : Store) :
    ¬ Interrupted x n s := by
  induction n generalizing s with
  | zero => exact id
  | succ n ih =>
      rintro ⟨e, s', hrefused, he, hne | hint⟩
      · exact hne ((hx _).left hrefused he).symm
      · exact ih s' hint

end RetryPolicy

/-- An operation on an available store yields just what its calls give. -/
theorem Session.Yields.gives {α : Type} {operation : Operation} {x : StoreM α} {g g' : Graph}
    {a : α} (h : Yields (Session.perform operation x) g a g') : Store.Gives x g a g' := by
  rcases RetryPolicy.attempt_cases (h { maxAttempts := 1 }) with hok | ⟨_, _, left', hleft, -⟩
  · exact hok
  · exact absurd hleft (Nat.succ_ne_zero left').symm

/-! ### Labelling twice -/

namespace Graph

/-- Labels that are there already change nothing. -/
theorem label_eq_self {g : Graph} {id : NodeId} {ls : List Label}
    (h : ∀ l ∈ ls, (g.entity id).has l = true) : g.label id ls = g := by
  refine ext_entity (size_label ..) (edges_label ..) fun i => ?_
  rw [label, entity_update]
  split
  · rename_i hi
    exact Entity.label_eq_self (hi.1 ▸ h)
  · rfl

/-- Labelling twice is labelling once. -/
theorem label_label (g : Graph) (id : NodeId) (ls : List Label) :
    (g.label id ls).label id ls = g.label id ls := by
  refine ext_entity (size_label ..) (edges_label ..) fun i => ?_
  show ((g.label id ls).update id (·.label ls) _).entity i = _
  rw [entity_update, size_label]
  split
  · rename_i hi
    rw [label, entity_update, if_pos hi]
    exact Entity.label_eq_self fun l hl => by simp [hl]
  · rfl

/-- The first node that meets a condition stays the first when it is labelled, if it still meets
the condition. -/
theorem firstWhere_label {g : Graph} {c : Entity → Bool} {n : Node} {ls : List Label}
    (h : g.firstWhere c = some n) (hc : c ((g.entity n.id).label ls) = true) :
    (g.label n.id ls).firstWhere c = some ((g.label n.id ls).nodeAt n.id) := by
  obtain ⟨hlt, hn, hcn⟩ := firstWhere_eq_some h
  have hids : (g.label n.id ls).idsWhere c = g.idsWhere c := by
    rw [idsWhere, idsWhere, size_label]
    refine List.filter_congr fun i hi => ?_
    rw [label, entity_update]
    split
    · rename_i heq
      rw [← heq.1, hc, hcn]
    · rfl
  have hhead : (g.idsWhere c).head? = some n.id := by
    rw [firstWhere, List.head?_map, Option.map_eq_some_iff] at h
    obtain ⟨id, hid, rfl⟩ := h
    exact hid
  rw [firstWhere, hids, List.head?_map, hhead, Option.map_some]

/-- Where no node meets a condition, a new one that does is the first. -/
theorem firstWhere_addNode {g : Graph} {c : Entity → Bool} {name : String} {ls : List Label}
    (h : g.firstWhere c = none) (hc : c { name, labels := .ofList ls } = true) :
    (g.addNode name ls).firstWhere c = some ((g.addNode name ls).nodeAt g.size) := by
  have hids : (g.addNode name ls).idsWhere c = [g.size] := by
    rw [idsWhere, size_addNode, List.range_succ, List.filter_append, List.filter_eq_nil_iff.mpr]
    · simp [entity_addNode, hc]
    · intro i hi
      have hlt : i < g.size := List.mem_range.mp hi
      rw [entity_addNode, if_neg (Nat.ne_of_lt hlt), firstWhere_eq_none h hlt]
      exact Bool.false_ne_true
  rw [firstWhere, hids]
  rfl

end Graph

/-! ### The operations that change the graph -/

/-- The operations of a session that change the graph, with the type of what they answer. -/
inductive GraphWrite : Type → Type where
  | createNode (name : String) (kind : EntityKind) (labels : List Label) : GraphWrite Node
  | getOrCreateNode (name : String) (kind : EntityKind) (onCreate onMatch : List Label) :
      GraphWrite Node
  | addLabel (id : NodeId) (label : Label) : GraphWrite Unit
  | setProperty (id : NodeId) (p : Property) (v : Value) : GraphWrite Unit
  | link (source target : NodeId) (relation : Relation) : GraphWrite Unit
  | clear : GraphWrite Unit

namespace GraphWrite

open Store RetryPolicy

variable {α : Type}

/-- The operation of the session. -/
def run : GraphWrite α → Session α
  | createNode name kind labels => Session.createNode name kind labels
  | getOrCreateNode name kind onCreate onMatch =>
      Session.getOrCreateNode name kind onCreate onMatch
  | addLabel id label => Session.addLabel id label
  | setProperty id p v => Session.setProperty id p v
  | link source target relation => Session.link source target relation
  | clear => Session.clear

/-- One attempt at the operation: its store calls, each made once. -/
def calls : GraphWrite α → StoreM α
  | createNode name kind labels => do
      let id ← Store.createNode name (.kind kind :: labels)
      Store.node id
  | getOrCreateNode name kind onCreate onMatch => do
      match ← Session.firstNode (·.has (.kind kind)) (← Store.idsNamed name) with
      | some n =>
        if onMatch.isEmpty then pure n
        else
          Store.addLabels n.id onMatch
          Store.node n.id
      | none =>
        let id ← Store.createNode name (.kind kind :: onCreate)
        Store.node id
  | addLabel id label => Store.addLabels id [label]
  | setProperty id p v => Store.setProperty id p v
  | link source target relation => Store.createEdge source relation target
  | clear => Store.clear

/-- Running an operation is retrying its calls. -/
theorem exists_run_eq (w : GraphWrite α) :
    ∃ operation, w.run = Session.perform operation w.calls := by
  cases w <;> exact ⟨_, rfl⟩

/-- One of the first `n` attempts at the operation is refused after it has changed the graph. -/
def Interrupted (w : GraphWrite α) (n : Nat) (s : Store) : Prop := Store.Interrupted w.calls n s

/-- Writing twice is as good as writing once. -/
def Repeatable : GraphWrite α → Graph → Prop
  | createNode _ _ _, _ => False
  | getOrCreateNode name kind onCreate onMatch, g =>
      (∃ n, (g.entity n).name = name ∧ (g.entity n).has (.kind kind) = true) ∨
        ∀ l ∈ onMatch, l ∈ .kind kind :: onCreate
  | _, _ => True

variable {g : Graph}

/-- Refused before or after the new node. -/
theorem tries_createNode (name : String) (kind : EntityKind) (labels : List Label) :
    Tries (createNode name kind labels).calls g
      fun h => h = g ∨ h = g.addNode name (.kind kind :: labels) := by
  refine (Store.tries_createNode (.inl rfl) name _).bind fun id g' hgives => ?_
  obtain ⟨-, rfl⟩ := (gives_createNode name _).unique hgives
  exact tries_node (.inr rfl) id

/-- Refused before or after the labels for a match. -/
theorem tries_getOrCreateNode_of_some {name : String} {kind : EntityKind}
    (onCreate onMatch : List Label) {n : Node}
    (h : g.firstWhere (Session.isNamed name kind) = some n) :
    Tries (getOrCreateNode name kind onCreate onMatch).calls g
      fun h => h = g ∨ h = g.label n.id onMatch := by
  refine tries_firstNamed (.inl rfl) name (fun e => e.has (.kind kind)) ?_
  rw [show (g.firstWhere fun e => e.name == name && e.has (.kind kind)) = some n from h]
  dsimp only
  split
  · exact Tries.pure n
  · refine (tries_addLabels (.inl rfl) n.id onMatch).bind fun _ g' hgives => ?_
    obtain ⟨-, rfl⟩ := (gives_addLabels (Graph.firstWhere_eq_some h).1 onMatch).unique hgives
    exact tries_node (.inr rfl) n.id

/-- Refused before or after the new node. -/
theorem tries_getOrCreateNode_of_none {name : String} {kind : EntityKind}
    (onCreate onMatch : List Label) (h : g.firstWhere (Session.isNamed name kind) = none) :
    Tries (getOrCreateNode name kind onCreate onMatch).calls g
      fun h => h = g ∨ h = g.addNode name (.kind kind :: onCreate) := by
  refine tries_firstNamed (.inl rfl) name (fun e => e.has (.kind kind)) ?_
  rw [show (g.firstWhere fun e => e.name == name && e.has (.kind kind)) = none from h]
  exact tries_createNode name kind onCreate

/-- Labelling keeps an entity the one that a name and a kind ask for. -/
theorem isNamed_label {name : String} {kind : EntityKind} {e : Entity}
    (h : Session.isNamed name kind e = true) (ls : List Label) :
    Session.isNamed name kind (e.label ls) = true := by
  simp only [Session.isNamed, Bool.and_eq_true] at h ⊢
  exact ⟨h.1, by rw [Entity.has_label, h.2, Bool.true_or]⟩

/-! ### Creating a node -/

section

variable {name : String} {kind : EntityKind} {labels onCreate onMatch : List Label}
  {operation : Operation} {total left : Nat} {s s' : Store} {a : Node}

/-- A new node without disturbance. -/
theorem gives_createNode : Gives (createNode name kind labels).calls g
    ((g.addNode name (.kind kind :: labels)).nodeAt g.size)
    (g.addNode name (.kind kind :: labels)) :=
  (Session.yields_createNode name kind labels).gives

/-- An interrupted attempt to create a node leaves a node too many. -/
theorem size_of_interrupted (hint : (createNode name kind labels).Interrupted (left + 1) s)
    (h : attempt operation total (createNode name kind labels).calls left s = (.ok a, s')) :
    s.graph.size + 2 ≤ s'.graph.size := by
  obtain ⟨left', s₁, hne, hleft, hrest⟩ :=
    exists_of_interrupted (tries_createNode name kind labels) hint h
  have hs₁ : s.graph.size + 1 ≤ s₁.graph.size :=
    Nat.le_of_eq (by rw [hleft.resolve_left hne, Graph.size_addNode])
  have hkeeps : ∀ g, s.graph.size + 1 ≤ g.size →
      Tries (createNode name kind labels).calls g fun g' => s.graph.size + 1 ≤ g'.size := by
    intro g hg
    refine (tries_createNode name kind labels).mono fun g' hg' => ?_
    rcases hg' with rfl | rfl
    · exact hg
    · rw [Graph.size_addNode]
      exact Nat.le_succ_of_le hg
  obtain ⟨g, hg, hgives⟩ := attempt_induction hkeeps hs₁ hrest
  rw [← (gives_createNode.unique hgives).2, Graph.size_addNode]
  exact Nat.succ_le_succ hg

/-! ### Asking for a node -/

/-- A node that is there, without disturbance. -/
theorem gives_getOrCreateNode_of_some {n : Node}
    (h : g.firstWhere (Session.isNamed name kind) = some n) :
    Gives (getOrCreateNode name kind onCreate onMatch).calls g
      ((g.label n.id onMatch).nodeAt n.id) (g.label n.id onMatch) :=
  (Session.yields_getOrCreateNode_of_some onCreate onMatch h).gives

/-- A node that is not there, without disturbance. -/
theorem gives_getOrCreateNode_of_none (h : g.firstWhere (Session.isNamed name kind) = none) :
    Gives (getOrCreateNode name kind onCreate onMatch).calls g
      ((g.addNode name (.kind kind :: onCreate)).nodeAt g.size)
      (g.addNode name (.kind kind :: onCreate)) :=
  (Session.yields_getOrCreateNode_of_none onCreate onMatch h).gives

/-- A node that is there gets the labels for a match, however often it is attempted. -/
theorem eq_of_some {n : Node} (hfirst : s.graph.firstWhere (Session.isNamed name kind) = some n)
    (h : attempt operation total (getOrCreateNode name kind onCreate onMatch).calls left s =
      (.ok a, s')) :
    a = (s.graph.label n.id onMatch).nodeAt n.id ∧ s'.graph = s.graph.label n.id onMatch := by
  have hlabelled := Graph.firstWhere_label hfirst
    (isNamed_label (Graph.firstWhere_eq_some hfirst).2.2 onMatch)
  have hkeeps : ∀ g, g = s.graph ∨ g = s.graph.label n.id onMatch →
      Tries (getOrCreateNode name kind onCreate onMatch).calls g
        fun g' => g' = s.graph ∨ g' = s.graph.label n.id onMatch := by
    rintro g (rfl | rfl)
    · exact tries_getOrCreateNode_of_some onCreate onMatch hfirst
    · have htries := tries_getOrCreateNode_of_some onCreate onMatch hlabelled
      rw [Graph.id_nodeAt, Graph.label_label] at htries
      exact htries.mono fun g' hg' => .inr (or_self_iff.mp hg')
  obtain ⟨g, rfl | rfl, hgives⟩ := attempt_induction hkeeps (.inl rfl) h
  · obtain ⟨ha, hs'⟩ := (gives_getOrCreateNode_of_some hfirst).unique hgives
    exact ⟨ha.symm, hs'.symm⟩
  · obtain ⟨ha, hs'⟩ := (gives_getOrCreateNode_of_some hlabelled).unique hgives
    rw [Graph.id_nodeAt, Graph.label_label] at ha hs'
    exact ⟨ha.symm, hs'.symm⟩

/-- A node that was not there gets the labels for a match as well, if an attempt was interrupted
after its creation. -/
theorem eq_of_interrupted (hfirst : s.graph.firstWhere (Session.isNamed name kind) = none)
    (hint : (getOrCreateNode name kind onCreate onMatch).Interrupted (left + 1) s)
    (h : attempt operation total (getOrCreateNode name kind onCreate onMatch).calls left s =
      (.ok a, s')) :
    a = ((s.graph.addNode name (.kind kind :: onCreate)).label s.graph.size onMatch).nodeAt
        s.graph.size ∧
      s'.graph = (s.graph.addNode name (.kind kind :: onCreate)).label s.graph.size onMatch := by
  obtain ⟨left', s₁, hne, hleft, hrest⟩ :=
    exists_of_interrupted (tries_getOrCreateNode_of_none onCreate onMatch hfirst) hint h
  have hnew : Session.isNamed name kind { name, labels := .ofList (.kind kind :: onCreate) } =
      true := by
    simp [Session.isNamed, Entity.has]
  have hfound := Graph.firstWhere_addNode hfirst hnew
  rw [← hleft.resolve_left hne] at hfound ⊢
  exact eq_of_some hfound hrest

/-- The labels for a match add nothing to a new node exactly when they are among those for a
creation. -/
theorem label_new_eq_iff :
    (g.addNode name (.kind kind :: onCreate)).label g.size onMatch =
        g.addNode name (.kind kind :: onCreate) ↔ ∀ l ∈ onMatch, l ∈ .kind kind :: onCreate := by
  have hhas : ∀ l, ((g.addNode name (.kind kind :: onCreate)).entity g.size).has l =
      decide (l ∈ .kind kind :: onCreate) := by
    intro l
    rw [Graph.entity_addNode, if_pos rfl, Entity.has, LabelSet.has_ofList]
  constructor
  · intro heq l hl
    have hlabelled : (((g.addNode name (.kind kind :: onCreate)).label g.size onMatch).entity
        g.size).has l = true := by
      rw [Graph.label, Graph.entity_update, if_pos ⟨rfl, by simp⟩, Entity.has_label,
        decide_eq_true hl, Bool.or_true]
    rw [heq, hhas] at hlabelled
    exact of_decide_eq_true hlabelled
  · intro hsub
    refine Graph.label_eq_self fun l hl => ?_
    rw [hhas]
    exact decide_eq_true (hsub l hl)

end

/-! ### All operations -/

/-- When retried calls have the effect of one undisturbed run. -/
theorem exactlyOnce_calls_iff (w : GraphWrite α) {operation : Operation} {total left : Nat}
    {s s' : Store} {a : α} (h : attempt operation total w.calls left s = (.ok a, s')) :
    ∃ a₀ g₀, Gives w.calls s.graph a₀ g₀ ∧
      ((a = a₀ ∧ s'.graph = g₀) ↔ ¬ w.Interrupted (left + 1) s ∨ w.Repeatable s.graph) := by
  -- An operation of one call is never interrupted, so it has just the undisturbed effect.
  have hsingle : (∀ g, Tries w.calls g (Eq g)) → ∃ a₀ g₀, Gives w.calls s.graph a₀ g₀ ∧
      ((a = a₀ ∧ s'.graph = g₀) ↔ ¬ w.Interrupted (left + 1) s ∨ w.Repeatable s.graph) := by
    intro hw
    have hnot := not_interrupted hw (left + 1) s
    exact ⟨a, s'.graph, gives_of_not_interrupted (hw _) hnot h,
      iff_of_true ⟨rfl, rfl⟩ (.inl hnot)⟩
  cases w with
  | createNode name kind labels =>
      refine ⟨_, _, gives_createNode, ?_, ?_⟩
      · rintro ⟨-, hgraph⟩
        refine .inl fun hint => ?_
        have hsize := size_of_interrupted hint h
        rw [hgraph, Graph.size_addNode] at hsize
        omega
      · rintro (hnot | hfalse)
        · exact (gives_of_not_interrupted (tries_createNode name kind labels) hnot h).unique
            gives_createNode
        · exact hfalse.elim
  | getOrCreateNode name kind onCreate onMatch =>
      cases hfirst : s.graph.firstWhere (Session.isNamed name kind) with
      | some n =>
          obtain ⟨-, -, hnamed⟩ := Graph.firstWhere_eq_some hfirst
          simp only [Session.isNamed, Bool.and_eq_true, beq_iff_eq] at hnamed
          exact ⟨_, _, gives_getOrCreateNode_of_some hfirst,
            iff_of_true (eq_of_some hfirst h) (.inr (.inl ⟨n.id, hnamed⟩))⟩
      | none =>
          refine ⟨_, _, gives_getOrCreateNode_of_none hfirst, ?_⟩
          by_cases hint : (getOrCreateNode name kind onCreate onMatch).Interrupted (left + 1) s
          · obtain ⟨rfl, hgraph⟩ := eq_of_interrupted hfirst hint h
            rw [hgraph, label_new_eq_iff]
            constructor
            · rintro ⟨-, hsub⟩
              exact .inr (.inr hsub)
            · rintro (hnot | ⟨n, hname, hkind⟩ | hsub)
              · exact absurd hint hnot
              · have hnone := Graph.firstWhere_eq_none hfirst (Graph.lt_size_of_has hkind)
                simp [Session.isNamed, hname, hkind] at hnone
              · exact ⟨by rw [label_new_eq_iff.mpr hsub], hsub⟩
          · refine iff_of_true ?_ (.inl hint)
            exact (gives_of_not_interrupted (tries_getOrCreateNode_of_none onCreate onMatch hfirst)
              hint h).unique (gives_getOrCreateNode_of_none hfirst)
  | addLabel => exact hsingle fun g => tries_addLabels (Eq.refl g) _ _
  | setProperty => exact hsingle fun g => tries_setProperty (Eq.refl g) _ _ _
  | link => exact hsingle fun g => tries_createEdge (Eq.refl g) _ _ _
  | clear => exact hsingle fun g => tries_clear (Eq.refl g)

/-- **Exactly once, unless interrupted.** An operation that changes the graph and succeeds under
any retry policy, on any store with any outages, would have succeeded undisturbed. It has the same
answer and the same effect as then exactly when no attempt was refused after it had changed the
graph, or when writing twice is as good as writing once. -/
theorem exactlyOnce_iff (w : GraphWrite α) {policy : RetryPolicy} {s s' : Store} {a : α}
    (h : w.run policy s = (.ok a, s')) :
    ∃ a₀ g₀, Session.Yields w.run s.graph a₀ g₀ ∧
      ((a = a₀ ∧ s'.graph = g₀) ↔
        ¬ w.Interrupted policy.attempts s ∨ w.Repeatable s.graph) := by
  obtain ⟨operation, hrun⟩ := w.exists_run_eq
  have hattempts : policy.attempts - 1 + 1 = policy.attempts :=
    Nat.sub_add_cancel (Nat.le_max_right ..)
  rw [hrun] at h ⊢
  obtain ⟨a₀, g₀, hgives, hiff⟩ := w.exactlyOnce_calls_iff h
  rw [hattempts] at hiff
  exact ⟨a₀, g₀, Session.Yields.perform hgives, hiff⟩

/-- A store whose second call is refused. -/
def starting : Store := { outages := [{ after := 1, count := 1, why := "starting" }] }

theorem exactlyOnce_iff_starting :
    ∃ a s' a₀ g₀, (getOrCreateNode "a.Out" .classType [.outOfScope] []).run { maxAttempts := 2 }
        starting = (.ok a, s') ∧
      Session.Yields (getOrCreateNode "a.Out" .classType [.outOfScope] []).run .empty a₀ g₀ ∧
      ((a = a₀ ∧ s'.graph = g₀) ↔
        ¬ (getOrCreateNode "a.Out" .classType [.outOfScope] []).Interrupted 2 starting ∨
          (getOrCreateNode "a.Out" .classType [.outOfScope] []).Repeatable .empty) := by
  have h : (getOrCreateNode "a.Out" .classType [.outOfScope] []).run { maxAttempts := 2 } starting =
      (.ok _, _) := rfl
  obtain ⟨a₀, g₀, hyields, hiff⟩ := exactlyOnce_iff _ h
  exact ⟨_, _, a₀, g₀, h, hyields, hiff⟩

/-- Creating a node on a store that refuses the second call leaves two nodes, not one. -/
theorem createNode_starting : ∃ a s',
    (createNode "a.A" .classType []).run { maxAttempts := 2 } starting = (.ok a, s') ∧
      ¬ Session.Yields (createNode "a.A" .classType []).run starting.graph a s'.graph := by
  refine ⟨_, _, rfl, fun h => ?_⟩
  have hsize := congrArg Graph.size (h.unique (Session.yields_createNode "a.A" .classType [])).2
  exact absurd hsize (by decide)

end GraphWrite

end Variability
