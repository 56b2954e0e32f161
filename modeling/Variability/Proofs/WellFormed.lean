import Variability.Proofs.Growth
import Variability.Proofs.Detection
import Mathlib.Logic.ExistsUnique

/-!
# Well-formed graphs

A graph that sweeps have built is sound (`Graph.Sound`): its nodes have one kind each, its types are
told apart by kind and name, its edges join nodes of the kinds that their relations are for, and its
members have one owner each. The empty graph is sound, and every step of growth keeps it so. Kinds,
names, scope and edges are all that soundness speaks of, so detection, which writes none of them,
keeps it too.

`Graph.WellFormed` says the same about a graph after detection, together with what detection adds:
nodes that are out of scope are not found to be variation points.

## Main results

* `Graph.Grown.sound`: whatever grows from a sound graph is sound.
* `Graph.Agree.sound`: what agrees with a sound graph on what was given is sound.
* `Graph.Sound.wellFormed`: a sound graph with its variation points in scope is well formed.
-/

namespace Variability

namespace Entity

variable {e : Entity} {k : EntityKind}

/-- The entity is of one kind and of no other. -/
def IsOf (e : Entity) (k : EntityKind) : Prop := ∀ k', e.has (.kind k') = decide (k' = k)

theorem IsOf.isType (h : e.IsOf k) : e.isType = k.isType := by
  rw [Entity.isType, h, h]
  cases k <;> rfl

theorem IsOf.isMember (h : e.IsOf k) : e.isMember = !k.isType := by
  rw [Entity.isMember, h, h]
  cases k <;> rfl

/-- A new entity is of the kind that it is created with. -/
theorem isOf_new {name : String} {ls : List Label} (hls : ∀ k, .kind k ∉ ls) :
    IsOf { name, labels := .ofList (.kind k :: ls) } k := by
  intro k'
  simp [Entity.has, hls k']

end Entity

namespace Graph

/-! ### Soundness -/

/-- The edge joins nodes of the kinds that its relation is for, and if it is a composition, its
target is in scope. -/
def Typed (g : Graph) (e : Edge) : Prop :=
  match e.relation with
  | .member => (g.entity e.source).isType = true ∧ (g.entity e.target).isMember = true
  | .extending => (g.entity e.source).has .classType = true ∧ (g.entity e.target).isType = true
  | .implementing =>
      (g.entity e.source).has .interfaceType = true ∧ (g.entity e.target).isType = true
  | .composing =>
      (g.entity e.source).isType = true ∧ (g.entity e.target).has .outOfScope = false

/-- The number of edges from an owner to a member. -/
def owners (g : Graph) (n : NodeId) : Nat := (g.edgesInto n).countP (·.relation == .member)

/-- What holds of every graph that sweeps have built. -/
structure Sound (g : Graph) : Prop where
  closed : g.Closed
  kind : ∀ n < g.size, ∃ k, (g.entity n).IsOf k
  unique : ∀ k : EntityKind, k.isType = true → ∀ m n, (g.entity m).has (.kind k) = true →
    (g.entity n).has (.kind k) = true → (g.entity m).name = (g.entity n).name → m = n
  typed : ∀ e ∈ g.edges, g.Typed e
  owner : ∀ n, (g.entity n).isMember = true → g.owners n = 1

variable {g h : Graph}

/-- Edges stay typed while nodes keep their kinds. -/
theorem Typed.keeps (H : g.Keeps h) {e : Edge} (hsource : e.source < g.size)
    (htarget : e.target < g.size) (he : g.Typed e) : h.Typed e := by
  unfold Typed at he ⊢
  rcases e with ⟨s, r, t⟩
  cases r with
  | member => exact ⟨(H.isType hsource).trans he.1, (H.isMember htarget).trans he.2⟩
  | extending => exact ⟨H.has_kind he.1, (H.isType htarget).trans he.2⟩
  | implementing => exact ⟨H.has_kind he.1, (H.isType htarget).trans he.2⟩
  | composing => exact ⟨(H.isType hsource).trans he.1, (H.has t htarget _ rfl).trans he.2⟩

/-- All edges of a graph stay typed while nodes keep their kinds. -/
theorem Sound.typed_of_keeps (hg : g.Sound) (H : g.Keeps h) : ∀ e ∈ g.edges, h.Typed e := by
  intro e he
  obtain ⟨hsource, htarget⟩ := hg.closed e he
  exact (hg.typed e he).keeps H hsource htarget

theorem sound_empty : empty.Sound where
  closed := closed_empty
  kind n hn := absurd hn (Nat.not_lt_zero n)
  unique k _ m n hm _ _ := absurd (lt_size_of_has hm) (Nat.not_lt_zero m)
  typed e he := by simp [empty] at he
  owner n hn := by
    rw [entity_of_le (Nat.zero_le n)] at hn
    simp [Entity.isMember, Entity.has] at hn

/-! ### Nodes -/

/-- Only nodes are members. -/
theorem lt_size_of_isMember {n : NodeId} (hn : (g.entity n).isMember = true) : n < g.size := by
  rcases (Bool.or_eq_true _ _).mp hn with hn | hn
  · exact lt_size_of_has hn
  · exact lt_size_of_has hn

/-- A new node has one kind, and the others keep theirs. -/
theorem kind_addNode (hg : ∀ n < g.size, ∃ k, (g.entity n).IsOf k) {name : String}
    {kind : EntityKind} {ls : List Label} (hls : ∀ k, .kind k ∉ ls) :
    ∀ n < (g.addNode name (.kind kind :: ls)).size,
      ∃ k, ((g.addNode name (.kind kind :: ls)).entity n).IsOf k := by
  intro n hn
  rw [size_addNode] at hn
  rw [entity_addNode]
  split
  · exact ⟨kind, Entity.isOf_new hls⟩
  · rename_i hne
    exact hg n (Nat.lt_of_le_of_ne (Nat.le_of_lt_succ hn) hne)

/-- Types stay told apart by kind and name, if a new type has a new name. -/
theorem unique_addNode (hg : g.Sound) {name : String} {kind : EntityKind} {ls : List Label}
    (hls : ∀ k, .kind k ∉ ls)
    (hnew : kind.isType = true →
      ∀ n, (g.entity n).name = name → (g.entity n).has (.kind kind) = false)
    {k : EntityKind} (hk : k.isType = true) {m n : NodeId}
    (hm : ((g.addNode name (.kind kind :: ls)).entity m).has (.kind k) = true)
    (hn : ((g.addNode name (.kind kind :: ls)).entity n).has (.kind k) = true)
    (hname : ((g.addNode name (.kind kind :: ls)).entity m).name =
      ((g.addNode name (.kind kind :: ls)).entity n).name) : m = n := by
  -- A node that has the name and kind of the new one is not among the others.
  have hother : ∀ i, (g.entity i).name = name → (g.entity i).has (.kind k) = true →
      Entity.has { name, labels := .ofList (.kind kind :: ls) } (.kind k) = true → False := by
    intro i hi hhas hkind
    rw [Entity.isOf_new hls k, decide_eq_true_eq] at hkind
    subst hkind
    rw [hnew hk i hi] at hhas
    exact Bool.false_ne_true hhas
  simp only [entity_addNode] at hm hn hname
  split at hm
  · rename_i hmnew
    split at hn
    · rename_i hnnew
      exact hmnew.trans hnnew.symm
    · rename_i hnold
      rw [if_pos hmnew, if_neg hnold] at hname
      exact (hother n hname.symm hn hm).elim
  · rename_i hmold
    split at hn
    · rename_i hnnew
      rw [if_neg hmold, if_pos hnnew] at hname
      exact (hother m hname hm hn).elim
    · rename_i hnold
      rw [if_neg hmold, if_neg hnold] at hname
      exact hg.unique k hk m n hm hn hname

/-! ### Owners -/

theorem owners_addEdge (g : Graph) (s : NodeId) (r : Relation) (t n : NodeId) :
    (g.addEdge s r t).owners n = g.owners n + if r = .member ∧ t = n then 1 else 0 := by
  by_cases ht : t = n
  · by_cases hr : r = .member
    · simp [owners, edgesInto_eq, addEdge, ht, hr]
    · simp [owners, edgesInto_eq, addEdge, ht, hr]
  · simp [owners, edgesInto_eq, addEdge, ht]

/-- What is not a node has no owner. -/
theorem owners_of_le (hg : g.Closed) {n : NodeId} (hn : g.size ≤ n) : g.owners n = 0 := by
  rw [owners, edgesInto_eq, List.countP_eq_zero]
  intro e he
  obtain ⟨hmem, htarget⟩ := List.mem_filter.mp he
  have hlt := (hg e (Array.mem_toList_iff.mp hmem)).2
  rw [eq_of_beq htarget] at hlt
  exact absurd hlt (Nat.not_lt.mpr hn)

/-! ### Growth -/

/-- The labels of a new node tell its kind once. -/
theorem kind_not_mem {ls : List Label} (hls : ∀ l ∈ ls, l.isNote = true ∨ l = .outOfScope)
    (k : EntityKind) : .kind k ∉ ls := by
  intro hmem
  rcases hls _ hmem with hnote | heq
  · exact Bool.false_ne_true hnote
  · cases heq

theorem Sound.addType (hg : g.Sound) {name : String} {kind : EntityKind} {ls : List Label}
    (hkind : kind.isType = true)
    (hnew : ∀ n, (g.entity n).name = name → (g.entity n).has (.kind kind) = false)
    (hls : ∀ l ∈ ls, l.isNote = true ∨ l = .outOfScope) :
    (g.addNode name (.kind kind :: ls)).Sound where
  closed := hg.closed.addNode _ _
  kind := kind_addNode hg.kind (kind_not_mem hls)
  unique _ hk _ _ hm hn hname := unique_addNode hg (kind_not_mem hls) (fun _ => hnew) hk hm hn hname
  typed := hg.typed_of_keeps (keeps_addNode ..)
  owner n hn := by
    rw [entity_addNode] at hn
    split at hn
    · rw [(Entity.isOf_new (kind_not_mem hls)).isMember, hkind] at hn
      exact absurd hn Bool.false_ne_true
    · exact hg.owner n hn

theorem Sound.addMember (hg : g.Sound) {owner : NodeId} {name : String} {kind : EntityKind}
    {ls : List Label} (howner : (g.entity owner).isType = true) (hkind : kind.isType = false)
    (hls : ∀ l ∈ ls, l.isNote = true) :
    ((g.addNode name (.kind kind :: ls)).addEdge owner .member g.size).Sound := by
  have hkinds := kind_not_mem fun l hl => Or.inl (hls l hl)
  have H := (keeps_addNode g name (.kind kind :: ls)).trans
    (keeps_addEdge _ owner .member g.size)
  have hnode : ((g.addNode name (.kind kind :: ls)).entity g.size).isMember = true := by
    rw [entity_addNode, if_pos rfl, (Entity.isOf_new hkinds).isMember, hkind]
    rfl
  refine ⟨(Grows.member howner hkind hls).closed hg.closed, ?_, ?_, ?_, ?_⟩
  · exact kind_addNode hg.kind hkinds
  · intro k hk m n hm hn hname
    refine unique_addNode hg hkinds (fun htype => ?_) hk hm hn hname
    rw [hkind] at htype
    exact absurd htype Bool.false_ne_true
  · intro e he
    rcases Array.mem_push.mp he with he | rfl
    · exact hg.typed_of_keeps H e he
    · exact ⟨(H.isType (lt_size_of_isType howner)).trans howner, hnode⟩
  · intro n hn
    rw [owners_addEdge]
    rw [entity_addEdge, entity_addNode] at hn
    -- The new node has the new edge, and no other node has it.
    split at hn
    · rename_i hnew
      have hzero : (g.addNode name (.kind kind :: ls)).owners n = 0 :=
        owners_of_le hg.closed (Nat.le_of_eq hnew.symm)
      rw [hzero, if_pos ⟨rfl, hnew.symm⟩]
    · rename_i hold
      rw [if_neg fun hand => hold hand.2.symm]
      exact hg.owner n hn

theorem Sound.note (hg : g.Sound) {id : NodeId} {ls : List Label}
    (hls : ∀ l ∈ ls, l.isNote = true) : (g.label id ls).Sound := by
  have hkinds := kind_not_mem fun l hl => Or.inl (hls l hl)
  have hkind : ∀ n k, ((g.label id ls).entity n).has (.kind k) = (g.entity n).has (.kind k) :=
    fun n k => has_label_of_not_mem (hkinds k)
  have hname : ∀ n, ((g.label id ls).entity n).name = (g.entity n).name := by
    intro n
    rw [label, entity_update]
    split
    · exact Entity.name_label _ _
    · rfl
  refine ⟨hg.closed.update _ _, ?_, ?_, hg.typed_of_keeps (keeps_label hls), ?_⟩
  · intro n hn
    obtain ⟨k, hk⟩ := hg.kind n (by simpa using hn)
    exact ⟨k, fun k' => (hkind n k').trans (hk k')⟩
  · intro k hk m n hm hn hmn
    rw [hkind] at hm hn
    rw [hname, hname] at hmn
    exact hg.unique k hk m n hm hn hmn
  · intro n hn
    rw [Entity.isMember, hkind, hkind] at hn
    exact hg.owner n hn

/-- Any edge may be added that is typed and does not give a member a second owner. -/
theorem Sound.addEdge (hg : g.Sound) {s t : NodeId} {r : Relation} (hr : r ≠ .member)
    (hs : s < g.size) (ht : t < g.size) (htyped : g.Typed ⟨s, r, t⟩) : (g.addEdge s r t).Sound where
  closed := hg.closed.addEdge r hs ht
  kind := hg.kind
  unique := hg.unique
  typed e he := by
    rcases Array.mem_push.mp he with he | rfl
    · exact hg.typed_of_keeps (keeps_addEdge ..) e he
    · exact htyped
  owner n hn := by
    rw [owners_addEdge, if_neg fun hand => hr hand.1]
    exact hg.owner n hn

/-- Every step of growth keeps a graph sound. -/
theorem Grows.sound (H : g.Grows h) (hg : g.Sound) : h.Sound := by
  cases H with
  | type hkind hnew hls => exact hg.addType hkind hnew hls
  | member howner hkind hls => exact hg.addMember howner hkind hls
  | note hls => exact hg.note hls
  | @inherit s t r hr hs ht =>
      have hlt := lt_size_of_has hs
      have hlt' := lt_size_of_isType ht
      cases r with
      | extending => exact hg.addEdge (by decide) hlt hlt' ⟨hs, ht⟩
      | implementing => exact hg.addEdge (by decide) hlt hlt' ⟨hs, ht⟩
      | member => exact absurd hr (by decide)
      | composing => exact absurd hr (by decide)
  | compose hs ht hscope =>
      exact hg.addEdge (by decide) (lt_size_of_isType hs) ht ⟨hs, hscope⟩

/-- **Growth keeps a graph sound.** -/
theorem Grown.sound (H : g.Grown h) (hg : g.Sound) : h.Sound := by
  induction H with
  | refl => exact hg
  | tail _ hstep ih => exact hstep.sound ih

/-! ### Detection -/

/-- What agrees with a sound graph on what was given is sound. -/
theorem Agree.sound (H : g.Agree Trait.IsGiven h) (hg : g.Sound) : h.Sound := by
  have hkeeps : g.Keeps h := by
    refine ⟨Nat.le_of_eq H.size.symm, fun n _ l hl => H.has ?_ n⟩
    unfold Label.isFixed at hl
    split at hl
    · rfl
    · rfl
    · exact absurd hl Bool.false_ne_true
  have hkind : ∀ n k, (h.entity n).has (.kind k) = (g.entity n).has (.kind k) :=
    fun n k => H.has (l := .kind k) rfl n
  refine ⟨H.closed hg.closed, ?_, ?_, ?_, ?_⟩
  · intro n hn
    obtain ⟨k, hk⟩ := hg.kind n (H.size ▸ hn)
    exact ⟨k, fun k' => (hkind n k').trans (hk k')⟩
  · intro k hk m n hm hn hname
    rw [hkind] at hm hn
    rw [H.name, H.name] at hname
    exact hg.unique k hk m n hm hn hname
  · rw [H.edges]
    exact hg.typed_of_keeps hkeeps
  · intro n hn
    rw [Entity.isMember, hkind, hkind] at hn
    rw [owners, edgesInto_eq, H.edges, ← edgesInto_eq]
    exact hg.owner n hn

/-- What holds of every graph that an analysis leaves. -/
structure WellFormed (g : Graph) : Prop where
  /-- Both ends of every edge exist. -/
  closed : g.Closed
  /-- A node is a class, an interface, a method or a constructor, and only one of them. -/
  kind : ∀ n < g.size, ∃! k, (g.entity n).has (.kind k) = true
  /-- No two classes, and no two interfaces, have one name. -/
  unique : ∀ k : EntityKind, k.isType = true → ∀ m n, (g.entity m).has (.kind k) = true →
    (g.entity n).has (.kind k) = true → (g.entity m).name = (g.entity n).name → m = n
  /-- Types have members. -/
  member : ∀ s t, g.Step .member s t →
    (g.entity s).isType = true ∧ (g.entity t).isMember = true
  /-- A member has one owner. -/
  owner : ∀ n, (g.entity n).isMember = true → g.owners n = 1
  /-- A member leads nowhere. -/
  leaf : ∀ n, (g.entity n).isMember = true → ∀ r t, ¬ g.Step r n t
  /-- What types extend is a class. -/
  extending : ∀ s t, g.Step .extending s t →
    (g.entity s).has .classType = true ∧ (g.entity t).isType = true
  /-- What types implement is an interface. -/
  implementing : ∀ s t, g.Step .implementing s t →
    (g.entity s).has .interfaceType = true ∧ (g.entity t).isType = true
  /-- Types are composed of nodes in scope. -/
  composing : ∀ s t, g.Step .composing s t →
    (g.entity s).isType = true ∧ (g.entity t).has .outOfScope = false
  /-- Variation points of both levels are in scope. -/
  inScope : ∀ n, (g.entity n).has .outOfScope = true →
    (g.entity n).has .variationPoint = false ∧ (g.entity n).has .methodLevelPoint = false

/-- Edges start at types. -/
theorem Typed.isType {e : Edge} (he : g.Typed e) : (g.entity e.source).isType = true := by
  unfold Typed at he
  split at he
  · exact he.1
  · exact (Bool.or_eq_true _ _).mpr (Or.inl he.1)
  · exact (Bool.or_eq_true _ _).mpr (Or.inr he.1)
  · exact he.1

/-- A sound graph whose variation points are in scope is well formed. -/
theorem Sound.wellFormed (hg : g.Sound)
    (hscope : ∀ n, (g.entity n).has .outOfScope = true →
      (g.entity n).has .variationPoint = false ∧ (g.entity n).has .methodLevelPoint = false) :
    g.WellFormed where
  closed := hg.closed
  kind n hn := by
    obtain ⟨k, hk⟩ := hg.kind n hn
    refine ⟨k, (hk k).trans (decide_eq_true rfl), fun k' hk' => ?_⟩
    exact of_decide_eq_true ((hk k').symm.trans hk')
  unique := hg.unique
  member _ _ hstep := hg.typed _ hstep
  owner := hg.owner
  leaf n hn r t hstep := by
    have htype := (hg.typed _ hstep).isType
    obtain ⟨k, hk⟩ := hg.kind n (lt_size_of_isMember hn)
    rw [hk.isType] at htype
    rw [hk.isMember, htype] at hn
    exact Bool.false_ne_true hn
  extending _ _ hstep := hg.typed _ hstep
  implementing _ _ hstep := hg.typed _ hstep
  composing _ _ hstep := hg.typed _ hstep
  inScope := hscope

end Graph

end Variability
