import Variability.Sweep.Supertypes
import Variability.Proofs.Queries
import Mathlib.Logic.Relation

/-!
# How sweeps let the graph grow

The five sweeps are driven by arbitrary events, but there are only five things that they ever do to
the graph (`Graph.Grows`): give a type a node where none has its name and kind, give a member a node
together with the edge from its owner, note labels on a node, link a type from a supertype, and link
a type to a node in scope that it is composed of. Everything that holds of all graphs that sweeps
build is proved from this list.

A program of a sweep is treated by what it leads to from one counter and graph
(`Session.BuildsAt`): it succeeds, the graph grows, and a postcondition holds of its answer. What
was known about nodes before stays true, because growing keeps the kind of a node and whether it is
in scope (`Graph.Keeps`).

## Main results

* `Graph.Grown.closed`, `Graph.Grown.keeps`: what growth preserves.
* `Session.BuildsAt.bind`: programs one after the other.
* `Sweep.Building.builds_run`: a sweep whose handlers build, builds.
-/

namespace Variability

/-- The labels that a sweep may note on a node. -/
def Label.isNote : Label → Bool
  | .visibility _ | .attr .abstract => true
  | .pattern p => p != .compositionStrategy
  | _ => false

/-- The labels that a node has from its creation or never in a sweep. -/
def Label.isFixed : Label → Bool
  | .kind _ | .attr .outOfScope => true
  | _ => false

/-- Whether an entity is a method or a constructor. -/
def Entity.isMember (e : Entity) : Bool := e.has .method || e.has .constructor

/-- What is fixed is never noted. -/
theorem Label.isNote_of_isFixed {l : Label} (h : l.isFixed = true) : l.isNote = false := by
  unfold isFixed at h
  split at h
  · rfl
  · rfl
  · exact absurd h Bool.false_ne_true

namespace Graph

/-- What a sweep can do to a graph in one step. -/
inductive Grows (g : Graph) : Graph → Prop where
  /-- A type gets a node, with a name and kind that no node has. -/
  | type {name : String} {kind : EntityKind} {ls : List Label} (hkind : kind.isType = true)
      (hnew : ∀ n, (g.entity n).name = name → (g.entity n).has (.kind kind) = false)
      (hls : ∀ l ∈ ls, l.isNote = true ∨ l = .outOfScope) :
      Grows g (g.addNode name (.kind kind :: ls))
  /-- A member gets a node, below the node of a type. -/
  | member {owner : NodeId} {name : String} {kind : EntityKind} {ls : List Label}
      (howner : (g.entity owner).isType = true) (hkind : kind.isType = false)
      (hls : ∀ l ∈ ls, l.isNote = true) :
      Grows g ((g.addNode name (.kind kind :: ls)).addEdge owner .member g.size)
  /-- A node gets labels that say nothing about its kind or scope. -/
  | note {id : NodeId} {ls : List Label} (hls : ∀ l ∈ ls, l.isNote = true) :
      Grows g (g.label id ls)
  /-- A type is linked from a supertype, which is a class or an interface as the relation says. -/
  | inherit {s t : NodeId} {r : Relation} (hr : r ∈ Relation.inheritance)
      (hs : (g.entity s).has (.kind (Sweep.supertypeKind r)) = true)
      (ht : (g.entity t).isType = true) : Grows g (g.addEdge s r t)
  /-- A type is linked to a node in scope that it is composed of. -/
  | compose {s t : NodeId} (hs : (g.entity s).isType = true) (ht : t < g.size)
      (hscope : (g.entity t).has .outOfScope = false) : Grows g (g.addEdge s .composing t)

/-- What a sweep can do to a graph in any number of steps. -/
abbrev Grown : Graph → Graph → Prop := Relation.ReflTransGen Grows

theorem Grown.trans {g h k : Graph} (H : g.Grown h) (K : h.Grown k) : g.Grown k :=
  Relation.ReflTransGen.trans H K

/-! ### What growth keeps -/

/-- The nodes of `g` are nodes of `h`, of the same kind and in or out of scope as before. -/
structure Keeps (g h : Graph) : Prop where
  size : g.size ≤ h.size
  has : ∀ n < g.size, ∀ l : Label, l.isFixed = true → (h.entity n).has l = (g.entity n).has l

variable {g h k : Graph}

theorem Keeps.refl (g : Graph) : Keeps g g := ⟨Nat.le_refl _, fun _ _ _ _ => rfl⟩

theorem Keeps.trans (H : Keeps g h) (K : Keeps h k) : Keeps g k := by
  refine ⟨Nat.le_trans H.size K.size, fun n hn l hl => ?_⟩
  rw [K.has n (Nat.lt_of_lt_of_le hn H.size) l hl, H.has n hn l hl]

theorem keeps_addNode (g : Graph) (name : String) (ls : List Label) :
    g.Keeps (g.addNode name ls) := by
  refine ⟨by simp, fun n hn l _ => ?_⟩
  rw [entity_addNode, if_neg (Nat.ne_of_lt hn)]

theorem keeps_addEdge (g : Graph) (s : NodeId) (r : Relation) (t : NodeId) :
    g.Keeps (g.addEdge s r t) :=
  ⟨Nat.le_refl _, fun _ _ _ _ => rfl⟩

/-- Labelling a node does not touch other labels. -/
theorem has_label_of_not_mem {id n : NodeId} {ls : List Label} {l : Label} (hl : l ∉ ls) :
    ((g.label id ls).entity n).has l = (g.entity n).has l := by
  rw [label, entity_update]
  split
  · rw [Entity.has_label, decide_eq_false hl, Bool.or_false]
  · rfl

theorem keeps_label {id : NodeId} {ls : List Label} (hls : ∀ l ∈ ls, l.isNote = true) :
    g.Keeps (g.label id ls) := by
  refine ⟨by simp, fun n _ l hl => has_label_of_not_mem fun hmem => ?_⟩
  have hnote := hls l hmem
  rw [Label.isNote_of_isFixed hl] at hnote
  exact Bool.false_ne_true hnote

theorem Grows.keeps (H : g.Grows h) : g.Keeps h := by
  cases H with
  | type => exact keeps_addNode ..
  | member => exact (keeps_addNode ..).trans (keeps_addEdge ..)
  | note hls => exact keeps_label hls
  | inherit => exact keeps_addEdge ..
  | compose => exact keeps_addEdge ..

/-- Growth keeps nodes, their kinds and their scope. -/
theorem Grown.keeps (H : g.Grown h) : g.Keeps h := by
  induction H with
  | refl => exact Keeps.refl g
  | tail _ hstep ih => exact ih.trans hstep.keeps

theorem Grows.closed (H : g.Grows h) (hg : g.Closed) : h.Closed := by
  cases H with
  | type => exact hg.addNode _ _
  | member howner =>
      refine (hg.addNode _ _).addEdge _ ?_ ?_
      · rw [size_addNode]
        exact Nat.lt_succ_of_lt (lt_size_of_isType howner)
      · rw [size_addNode]
        exact Nat.lt_succ_self _
  | note => exact hg.update _ _
  | inherit _ hs ht => exact hg.addEdge _ (lt_size_of_has hs) (lt_size_of_isType ht)
  | compose hs ht => exact hg.addEdge _ (lt_size_of_isType hs) ht

/-- Growth keeps both ends of every edge in the graph. -/
theorem Grown.closed (H : g.Grown h) (hg : g.Closed) : h.Closed := by
  induction H with
  | refl => exact hg
  | tail _ hstep ih => exact hstep.closed ih

/-- A node keeps its kind. -/
theorem Keeps.has_kind (H : g.Keeps h) {n : NodeId} {k : EntityKind}
    (hn : (g.entity n).has (.kind k) = true) : (h.entity n).has (.kind k) = true := by
  rw [H.has n (lt_size_of_has hn) _ rfl]
  exact hn

theorem Keeps.isType (H : g.Keeps h) {n : NodeId} (hn : n < g.size) :
    (h.entity n).isType = (g.entity n).isType := by
  rw [Entity.isType, Entity.isType, H.has n hn _ rfl, H.has n hn _ rfl]

theorem Keeps.isMember (H : g.Keeps h) {n : NodeId} (hn : n < g.size) :
    (h.entity n).isMember = (g.entity n).isMember := by
  rw [Entity.isMember, Entity.isMember, H.has n hn _ rfl, H.has n hn _ rfl]

theorem Grown.lt (H : g.Grown h) {n : NodeId} (hn : n < g.size) : n < h.size :=
  Nat.lt_of_lt_of_le hn H.keeps.size

/-- A type stays a type. -/
theorem Grown.isType (H : g.Grown h) {n : NodeId} (hn : (g.entity n).isType = true) :
    (h.entity n).isType = true :=
  (H.keeps.isType (lt_size_of_isType hn)).trans hn

/-- A node in scope stays in scope. -/
theorem Grown.inScope (H : g.Grown h) {n : NodeId} (hn : n < g.size)
    (hscope : (g.entity n).has .outOfScope = false) : (h.entity n).has .outOfScope = false :=
  (H.keeps.has n hn _ rfl).trans hscope

theorem Grows.name (H : g.Grows h) {n : NodeId} (hn : n < g.size) :
    (h.entity n).name = (g.entity n).name := by
  have hnew : ∀ name ls, ((g.addNode name ls).entity n).name = (g.entity n).name := by
    intro name ls
    rw [entity_addNode, if_neg (Nat.ne_of_lt hn)]
  cases H with
  | type => exact hnew _ _
  | member => exact hnew _ _
  | note =>
      rw [label, entity_update]
      split
      · exact Entity.name_label _ _
      · rfl
  | inherit => rfl
  | compose => rfl

/-- A node keeps its name. -/
theorem Grown.name (H : g.Grown h) {n : NodeId} (hn : n < g.size) :
    (h.entity n).name = (g.entity n).name := by
  induction H with
  | refl => rfl
  | tail hgrown hstep ih => exact (hstep.name (Grown.lt hgrown hn)).trans ih

/-- The nodes of `g` are nodes of `h`, with the same name, of the same kind and in or out of scope
as before. -/
structure Extends (g h : Graph) : Prop extends Keeps g h where
  name : ∀ n < g.size, (h.entity n).name = (g.entity n).name

theorem Grown.extends (H : g.Grown h) : g.Extends h := ⟨H.keeps, fun _ hn => H.name hn⟩

theorem Grows.edges (H : g.Grows h) : g.edges.toList <+: h.edges.toList := by
  have hnew : ∀ e, g.edges.toList <+: (g.edges.push e).toList := by
    intro e
    rw [Array.toList_push]
    exact List.prefix_append _ _
  cases H with
  | type => exact List.prefix_rfl
  | member => exact hnew _
  | note => exact List.prefix_rfl
  | inherit => exact hnew _
  | compose => exact hnew _

/-- Edges stay, and new ones come after them. -/
theorem Grown.edges (H : g.Grown h) : g.edges.toList <+: h.edges.toList := by
  induction H with
  | refl => exact List.prefix_rfl
  | tail _ hgrows ih => exact ih.trans hgrows.edges

theorem Grown.step (H : g.Grown h) {r : Relation} {s t : NodeId} (hstep : g.Step r s t) :
    h.Step r s t :=
  Array.mem_toList_iff.mp (H.edges.subset (Array.mem_toList_iff.mpr hstep))

theorem Grown.length_edgesFrom_le (H : g.Grown h) (n : NodeId) :
    (g.edgesFrom n).length ≤ (h.edgesFrom n).length := by
  rw [edgesFrom_eq, edgesFrom_eq]
  exact (H.edges.filter _).length_le

theorem Grows.has_of_has (H : g.Grows h) {n : NodeId} {l : Label}
    (hl : (g.entity n).has l = true) : (h.entity n).has l = true := by
  have hnew : ∀ name ls, ((g.addNode name ls).entity n).has l = true := by
    intro name ls
    rwa [entity_addNode, if_neg (Nat.ne_of_lt (lt_size_of_has hl))]
  cases H with
  | type => exact hnew _ _
  | member => exact hnew _ _
  | note =>
      rw [label, entity_update]
      split
      · rw [Entity.has_label, hl, Bool.true_or]
      · exact hl
  | inherit => exact hl
  | compose => exact hl

/-- A label stays. -/
theorem Grown.has_of_has (H : g.Grown h) {n : NodeId} {l : Label}
    (hl : (g.entity n).has l = true) : (h.entity n).has l = true := by
  induction H with
  | refl => exact hl
  | tail _ hstep ih => exact hstep.has_of_has ih

end Graph

/-! ### Programs of sweeps -/

namespace Session

variable {α β σ : Type} {g : Graph}

/-- From one state of the counters and one graph, the program succeeds, lets the graph grow, and its
answer meets the postcondition. -/
def BuildsAt (x : StateT σ Session α) (s : σ) (g : Graph) (Q : α → Graph → Prop) : Prop :=
  ∃ a s' g', Yields (x.run s) g (a, s') g' ∧ g.Grown g' ∧ Q a g'

/-- From any counters and any closed graph, the program succeeds and lets the graph grow. -/
def Builds (x : StateT σ Session α) : Prop :=
  ∀ (s : σ) (g : Graph), g.Closed → BuildsAt x s g fun _ _ => True

/-- A program of the session does not see the counters. -/
theorem Yields.lift {y : Session α} {a : α} {g' : Graph} (hy : Yields y g a g') (s : σ) :
    Yields ((liftM y : StateT σ Session α).run s) g (a, s) g' :=
  hy.bind (Yields.pure _ _)

namespace BuildsAt

variable {x : StateT σ Session α} {f : α → StateT σ Session β} {s : σ}
  {Q : α → Graph → Prop} {R : β → Graph → Prop}

theorem pure {a : α} (h : Q a g) : BuildsAt (Pure.pure a : StateT σ Session α) s g Q :=
  ⟨a, s, g, Yields.pure _ _, .refl, h⟩

/-- Programs in sequence. The second starts from a graph that has grown. -/
theorem bind (hx : BuildsAt x s g Q)
    (hf : ∀ a s' g', g.Grown g' → Q a g' → BuildsAt (f a) s' g' R) :
    BuildsAt (x >>= f) s g R := by
  obtain ⟨a, s', g', hyields, hgrown, hQ⟩ := hx
  obtain ⟨b, s'', g'', hyields', hgrown', hR⟩ := hf a s' g' hgrown hQ
  exact ⟨b, s'', g'', hyields.bind hyields', hgrown.trans hgrown', hR⟩

/-- A program of the session that lets the graph grow. -/
theorem lift {y : Session α} {a : α} {g' : Graph} (hy : Yields y g a g') (hgrown : g.Grown g')
    (hQ : Q a g') : BuildsAt (liftM y : StateT σ Session α) s g Q :=
  ⟨a, s, g', hy.lift s, hgrown, hQ⟩

/-- A program of the session that reads the graph, with the rest of the program. -/
theorem read {y : Session α} {a : α} (hy : Yields y g a g) (hf : BuildsAt (f a) s g R) :
    BuildsAt ((liftM y : StateT σ Session α) >>= f) s g R := by
  obtain ⟨b, s', g', hyields, hgrown, hR⟩ := hf
  exact ⟨b, s', g', (hy.lift s).bind hyields, hgrown, hR⟩

/-- Counting. -/
theorem count {c : σ → σ} :
    BuildsAt (modify c : StateT σ Session Unit) s g fun _ _ => True :=
  ⟨(), c s, g, Yields.pure _ _, .refl, trivial⟩

/-- A loop whose body builds from every graph that the given one has grown to. -/
theorem forM {xs : List α} {f : α → StateT σ Session Unit}
    (hf : ∀ x ∈ xs, ∀ s g', g.Grown g' → BuildsAt (f x) s g' fun _ _ => True) :
    BuildsAt (xs.forM f) s g fun _ _ => True := by
  induction xs generalizing s g with
  | nil => exact pure trivial
  | cons x xs ih =>
      refine (hf x List.mem_cons_self s g .refl).bind fun _ s' g' hgrown _ => ih ?_
      intro y hy s'' g'' hgrown'
      exact hf y (List.mem_cons_of_mem _ hy) s'' g'' (hgrown.trans hgrown')

end BuildsAt

namespace Builds

theorem pure (a : α) : Builds (Pure.pure a : StateT σ Session α) :=
  fun _ _ _ => BuildsAt.pure trivial

theorem bind {x : StateT σ Session α} {f : α → StateT σ Session β} (hx : Builds x)
    (hf : ∀ a, Builds (f a)) : Builds (x >>= f) :=
  fun s g hg => (hx s g hg).bind fun a s' g' hgrown _ => hf a s' g' (hgrown.closed hg)

/-- A fold whose steps build. -/
theorem foldlM {f : β → α → StateT σ Session β} (hf : ∀ b x, Builds (f b x)) (xs : List α)
    (b : β) : Builds (xs.foldlM f b) := by
  induction xs generalizing b with
  | nil => exact pure b
  | cons x xs ih => exact (hf b x).bind fun b' => ih b'

end Builds

end Session

/-! ### Sweeps -/

namespace Sweep

open Session

variable {σ : Type} {s : Sweep (StateT σ Session)}

/-- All handlers of a sweep build. -/
structure Building (s : Sweep (StateT σ Session)) : Prop where
  enter : ∀ c d, Builds (s.enter c d)
  exit : ∀ c d, Builds (s.exit c d)
  method : ∀ c d, Builds (s.method c d)
  field : ∀ c d, Builds (s.field c d)
  invocation : ∀ c i, Builds (s.invocation c i)
  returning : ∀ c r, Builds (s.returning c r)

namespace Building

/-- Past the start of a type, whether it is gone into or not. -/
theorem builds_startType (h : s.Building) (p : Progress) (d : TypeDecl) :
    Builds (s.startType p d) := by
  have hvisit : Builds (s.decideVisit p.context d) := by
    unfold decideVisit
    split
    · exact Builds.pure _
    · exact h.enter _ _
  refine hvisit.bind fun visit => ?_
  cases visit with
  | skip => exact Builds.pure _
  | descend => exact Builds.pure _

/-- Past the end of a type. -/
theorem builds_endType (h : s.Building) (p : Progress) : Builds (s.endType p) := by
  unfold endType
  split
  · exact Builds.pure _
  · exact (h.exit _ _).bind fun _ => Builds.pure _

/-- Past any event: what is inside a skipped type is not handled, and what is handled builds. -/
theorem builds_step (h : s.Building) (p : Progress) (e : Event) : Builds (s.step p e) := by
  have hunless : ∀ {x y : StateT σ Session Progress}, Builds x → Builds y →
      Builds (if p.depth > 0 then x else y) := by
    intro x y hx hy
    split
    · exact hx
    · exact hy
  cases e with
  | importing i =>
      show Builds (if i.isStatic then Pure.pure p else Pure.pure _)
      split
      · exact Builds.pure _
      · exact Builds.pure _
  | entered d => exact hunless (Builds.pure _) (h.builds_startType p d)
  | exited => exact hunless (Builds.pure _) (h.builds_endType p)
  | method d => exact hunless (Builds.pure _) ((h.method _ _).bind fun _ => Builds.pure _)
  | field d => exact hunless (Builds.pure _) ((h.field _ _).bind fun _ => Builds.pure _)
  | invocation i =>
      cases i with
      | none => exact Builds.pure _
      | some i => exact hunless (Builds.pure _) ((h.invocation _ _).bind fun _ => Builds.pure _)
  | returning r => exact hunless (Builds.pure _) ((h.returning _ _).bind fun _ => Builds.pure _)

/-- **A sweep whose handlers build, builds**: over any units it succeeds and lets the graph grow. -/
theorem builds_run (h : s.Building) (units : List SourceUnit) : Builds (s.run units) := by
  refine Builds.foldlM (fun r u => ?_) units _
  exact (Builds.foldlM h.builds_step u.events _).bind fun _ => Builds.pure _

end Building

end Sweep

end Variability
