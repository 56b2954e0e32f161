import Variability.Proofs.Graph

/-!
# Breadth-first search finds what paths reach

The search of `Graph.reachable` keeps one list: the nodes met so far, of which the first `done`
have had their successors looked at. Three facts about this list are kept by every step. It has no
repetition; whatever is in it is reached by a path; and the successors of its first `done` members
are in it. One step looks at one node more, and a list of distinct nodes is no longer than there
are nodes, so when the steps are used up every member has been looked at, and the list is closed
under successors.

## Main results

* `Graph.nodup_reachable`: no node is found twice.
* `Graph.mem_reachable`: the search finds a node exactly when a path leads to it.
* `Graph.head?_reachable`: the start comes first.
-/

namespace Variability.Graph

/-! ### Meeting nodes -/

/-- Meeting nodes adds these nodes and no other. -/
theorem mem_meet {met ids : List NodeId} {x : NodeId} :
    x ∈ meet met ids ↔ x ∈ met ∨ x ∈ ids := by
  induction ids generalizing met with
  | nil => simp [meet]
  | cons id ids ih =>
      rw [meet]
      split
      · rename_i hmem
        rw [ih, List.mem_cons]
        constructor
        · rintro (h | h)
          · exact Or.inl h
          · exact Or.inr (Or.inr h)
        · rintro (h | rfl | h)
          · exact Or.inl h
          · exact Or.inl hmem
          · exact Or.inr h
      · rw [ih, List.mem_append, List.mem_singleton, List.mem_cons, or_assoc]

/-- A node that was met is not met again. -/
theorem nodup_meet {met ids : List NodeId} (h : met.Nodup) : (meet met ids).Nodup := by
  induction ids generalizing met with
  | nil => exact h
  | cons id ids ih =>
      rw [meet]
      split
      · exact ih h
      · rename_i hmem
        apply ih
        rw [List.nodup_append]
        refine ⟨h, by simp, ?_⟩
        intro x hx y hy hxy
        rw [List.mem_singleton.mp hy] at hxy
        exact hmem (hxy ▸ hx)

/-- The nodes met before stay in front. -/
theorem prefix_meet (met ids : List NodeId) : met <+: meet met ids := by
  induction ids generalizing met with
  | nil => exact List.prefix_rfl
  | cons id ids ih =>
      rw [meet]
      split
      · exact ih met
      · exact (List.prefix_append met [id]).trans (ih _)

/-! ### The search -/

section Search

variable {next : NodeId → List NodeId}

/-- The search keeps the nodes met before, in front. -/
theorem prefix_search (steps done : Nat) (met : List NodeId) :
    met <+: search next steps done met := by
  induction steps generalizing done met with
  | zero => exact List.prefix_rfl
  | succ steps ih =>
      rw [search]
      split
      · exact List.prefix_rfl
      · exact (prefix_meet met _).trans (ih _ _)

/-- The search meets no node twice. -/
theorem nodup_search {steps done : Nat} {met : List NodeId} (h : met.Nodup) :
    (search next steps done met).Nodup := by
  induction steps generalizing done met with
  | zero => exact h
  | succ steps ih =>
      rw [search]
      split
      · exact h
      · exact ih (nodup_meet h)

/-- What is kept by successors holds of every node the search meets. -/
theorem search_induction {P : NodeId → Prop} (hnext : ∀ x, P x → ∀ y ∈ next x, P y)
    {steps done : Nat} {met : List NodeId} (h : ∀ x ∈ met, P x) :
    ∀ x ∈ search next steps done met, P x := by
  induction steps generalizing done met with
  | zero => exact h
  | succ steps ih =>
      rw [search]
      split
      · exact h
      · rename_i id hid
        apply ih
        intro x hx
        rcases mem_meet.mp hx with hx | hx
        · exact h x hx
        · exact hnext id (h id (List.mem_of_getElem? hid)) x hx

/-- Distinct numbers below a bound are no more than the bound. -/
theorem length_le_of_nodup {n : Nat} {ids : List NodeId} (hnodup : ids.Nodup)
    (hlt : ∀ x ∈ ids, x < n) : ids.length ≤ n := by
  have hsub : ids ⊆ List.range n := fun x hx => List.mem_range.mpr (hlt x hx)
  have hle := hnodup.length_le_of_subset hsub
  rwa [List.length_range] at hle

/-- With enough steps the search ends in a list that is closed under successors. The successors
of the first `done` nodes have been met already. -/
theorem search_closed {n : Nat} (hnext : ∀ x < n, ∀ y ∈ next x, y < n) {steps done : Nat}
    {met : List NodeId} (hnodup : met.Nodup) (hlt : ∀ x ∈ met, x < n)
    (hdone : ∀ x ∈ met.take done, ∀ y ∈ next x, y ∈ met) (henough : n ≤ steps + done) :
    ∀ x ∈ search next steps done met, ∀ y ∈ next x, y ∈ search next steps done met := by
  -- All members are done as soon as there are no more of them than `done`.
  have hall : met.length ≤ done → ∀ x ∈ met, ∀ y ∈ next x, y ∈ met := by
    intro hle
    rwa [List.take_of_length_le hle] at hdone
  induction steps generalizing done met with
  | zero =>
      refine hall ?_
      have hlen := length_le_of_nodup hnodup hlt
      omega
  | succ steps ih =>
      rw [search]
      split
      · rename_i hnone
        exact hall (List.getElem?_eq_none_iff.mp hnone)
      · rename_i id hid
        have hidmem : id ∈ met := List.mem_of_getElem? hid
        have hlt' : ∀ x ∈ meet met (next id), x < n := by
          intro x hx
          rcases mem_meet.mp hx with hx | hx
          · exact hlt x hx
          · exact hnext id (hlt id hidmem) x hx
        have hdone' : ∀ x ∈ (meet met (next id)).take (done + 1), ∀ y ∈ next x,
            y ∈ meet met (next id) := by
          intro x hx y hy
          obtain ⟨rest, hrest⟩ := prefix_meet met (next id)
          have hlen : done < met.length := (List.getElem?_eq_some_iff.mp hid).1
          rw [← hrest, List.take_append_of_le_length hlen,
            List.take_add_one, hid, Option.toList_some, List.mem_append,
            List.mem_singleton] at hx
          rcases hx with hx | rfl
          · exact mem_meet.mpr (Or.inl (hdone x hx y hy))
          · exact mem_meet.mpr (Or.inr hy)
        refine ih (nodup_meet hnodup) hlt' hdone' (by omega) fun hle => ?_
        rwa [List.take_of_length_le hle] at hdone'

end Search

/-! ### Reachability -/

/-- The successors of a node are the ends of its edges of the relation. -/
theorem mem_successors {g : Graph} {relation : Relation} {id m : NodeId} :
    m ∈ g.successors relation id ↔ g.Step relation id m := by
  simp only [successors, edgesFrom_eq, List.mem_map, List.mem_reverse, List.mem_filter,
    Array.mem_toList_iff, beq_iff_eq, Step]
  constructor
  · rintro ⟨⟨source, r, target⟩, ⟨⟨he, rfl⟩, rfl⟩, rfl⟩
    exact he
  · intro he
    exact ⟨⟨id, relation, m⟩, ⟨⟨he, rfl⟩, rfl⟩, rfl⟩

/-- No node is found twice. -/
theorem nodup_reachable (g : Graph) (relation : Relation) (start : NodeId) :
    (g.reachable relation start).Nodup :=
  nodup_search (by simp)

/-- The start comes first. -/
theorem head?_reachable (g : Graph) (relation : Relation) (start : NodeId) :
    (g.reachable relation start).head? = some start := by
  have hprefix : [start] <+: g.reachable relation start := prefix_search g.entities.size 0 [start]
  obtain ⟨rest, hrest⟩ := hprefix
  rw [← hrest]
  rfl

/-- **The search is exact.** It finds a node exactly when a path of edges of the relation leads
to it from the start. -/
theorem mem_reachable {g : Graph} (hg : g.Closed) {relation : Relation} {start : NodeId}
    (hstart : start < g.size) {m : NodeId} :
    m ∈ g.reachable relation start ↔ g.Reaches relation start m := by
  constructor
  · refine search_induction (fun x hx y hy => ?_) (fun x hx => ?_) m
    · exact hx.step (mem_successors.mp hy)
    · rw [List.mem_singleton.mp hx]
      exact Reaches.start
  · have hclosed : ∀ x ∈ g.reachable relation start, ∀ y ∈ g.successors relation x,
        y ∈ g.reachable relation start :=
      search_closed (n := g.size) (fun x _ y hy => (hg _ (mem_successors.mp hy)).2) (by simp)
        (fun x hx => (List.mem_singleton.mp hx) ▸ hstart) (by simp) (Nat.le_refl _)
    intro h
    induction h with
    | start => exact List.mem_of_mem_head? (head?_reachable g relation start)
    | step _ hstep ih => exact hclosed _ ih _ (mem_successors.mpr hstep)

end Variability.Graph
