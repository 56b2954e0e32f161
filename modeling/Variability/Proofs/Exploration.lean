import Variability.Proofs.Aggregation

/-!
# What a search of a store finds

The search for the nodes that a node reaches is written with a number of steps after which it
stops. The loop that it stands for has no such number: it looks at one node after the other until
none is left that has been met and not looked at (`Graph.Explores`). On a closed graph the two are
the same, on cycles and with parallel edges as well, because no node is met twice and there are
enough steps for all of them. So the search of a store always ends by itself, and with it everything
is found that paths lead to (`Graph.Found`).

The rule for aggregations takes the length of what a search finds for the size of a composition
group. As nothing is found twice, this is the number of nodes that the group has.

## Main results

* `Graph.explores_reachable`: the loop ends, and the bounded search has its result.
* `Hotspot.yields_flagGroups_iff`: composition groups are flagged by the number of their nodes.
* `Store.reachable_found`: what a search finds, on every store and from every node.
-/

namespace Variability

namespace Graph

/-! ### The loop without a bound -/

/-- The loop that looks at the successors of one node after the other: from the list `met`, of which
the first `done` nodes have been looked at, it ends with the list `found`. -/
inductive Explores (next : NodeId → List NodeId) : Nat → List NodeId → List NodeId → Prop where
  /-- Every node that was met has been looked at. -/
  | ended {done : Nat} {met : List NodeId} : met[done]? = none → Explores next done met met
  /-- The first node that was not looked at is looked at. -/
  | look {done : Nat} {met found : List NodeId} {id : NodeId} : met[done]? = some id →
      Explores next (done + 1) (meet met (next id)) found → Explores next done met found

/-- With as many steps as there are nodes that have not been looked at, the search runs out of nodes
before it runs out of steps. -/
theorem explores_search {next : NodeId → List NodeId} {n : Nat}
    (hnext : ∀ x < n, ∀ y ∈ next x, y < n) {steps done : Nat} {met : List NodeId}
    (hnodup : met.Nodup) (hlt : ∀ x ∈ met, x < n) (henough : n ≤ steps + done) :
    Explores next done met (search next steps done met) := by
  induction steps generalizing done met with
  | zero =>
      have hlen := length_le_of_nodup hnodup hlt
      exact .ended (List.getElem?_eq_none (by omega))
  | succ steps ih =>
      rw [search]
      split
      · rename_i hnone
        exact .ended hnone
      · rename_i id hid
        have hlt' : ∀ x ∈ meet met (next id), x < n := by
          intro x hx
          rcases mem_meet.mp hx with hx | hx
          · exact hlt x hx
          · exact hnext id (hlt id (List.mem_of_getElem? hid)) x hx
        exact .look hid (ih (nodup_meet hnodup) hlt' (by omega))

variable {g : Graph} {relation : Relation} {start : NodeId}

/-- **The loop ends**, from every node of a closed graph, and the bounded search has its result. -/
theorem explores_reachable (hg : g.Closed) (hstart : start < g.size) :
    Explores (g.successors relation) 0 [start] (g.reachable relation start) :=
  explores_search (fun _ _ _ hy => (hg.step (mem_successors.mp hy)).2) (List.nodup_singleton start)
    (fun _ hx => List.mem_singleton.mp hx ▸ hstart) (Nat.le_refl _)

/-- The list `ids` is what a search along a relation finds from a node. -/
structure Found (g : Graph) (relation : Relation) (start : NodeId) (ids : List NodeId) : Prop where
  /-- The loop of the search ends, with this list. -/
  explores : Explores (g.successors relation) 0 [start] ids
  nodup : ids.Nodup
  head? : ids.head? = some start
  /-- A node is found exactly if a path of edges of the relation leads to it. -/
  mem_iff : ∀ n, n ∈ ids ↔ g.Reaches relation start n
  length : ids.length = {n | g.Reaches relation start n}.ncard

theorem found_reachable (hg : g.Closed) (hstart : start < g.size) :
    g.Found relation start (g.reachable relation start) where
  explores := explores_reachable hg hstart
  nodup := nodup_reachable g relation start
  head? := head?_reachable g relation start
  mem_iff _ := mem_reachable hg hstart
  length := (Hotspot.ncard_reaches hg hstart).symm

end Graph

/-! ### Composition groups -/

namespace Hotspot

open Session

/-- **Composition groups are flagged by the number of their nodes**: those of the variation points
from which compositions lead to at least as many nodes as the threshold says. -/
theorem yields_flagGroups_iff {g : Graph} (hg : g.Closed) (threshold : UInt64) :
    ∃ h, Yields (flagGroups threshold) g () h ∧
      ∀ n, (h.entity n).flag .aggregation = true ↔ (g.entity n).flag .aggregation = true ∨
        ∃ v, (g.entity v).has .variationPoint = true ∧
          threshold.toNat ≤ {m | g.Reaches .composing v m}.ncard ∧ g.Reaches .composing v n := by
  refine ⟨_, yields_flagGroups hg threshold, fun n => ?_⟩
  rw [Graph.flag_raiseAll, mem_groupIds]
  refine or_congr_right ⟨?_, ?_⟩
  · rintro ⟨⟨v, hv, hlarge, hn⟩, -⟩
    have hlt := Graph.lt_size_of_has hv
    exact ⟨v, hv, ncard_reaches hg hlt ▸ hlarge, (Graph.mem_reachable hg hlt).mp hn⟩
  · rintro ⟨v, hv, hlarge, hn⟩
    have hlt := Graph.lt_size_of_has hv
    have hmem := (Graph.mem_reachable hg hlt).mpr hn
    exact ⟨⟨v, hv, ncard_reaches hg hlt ▸ hlarge, hmem⟩, lt_of_mem_reachable hg hlt hmem⟩

end Hotspot

/-! ### Stores -/

namespace Store

/-- **A search of a store is exact.** Whatever has been called on the store, from every node that
exists and along every relation, the search ends and finds the nodes that paths lead to, each once
and the start first. The rule for aggregations flags the groups that have as many nodes as its
threshold says. -/
theorem reachable_found (calls : List Write) {start : NodeId}
    (hstart : start < (after calls).graph.size) (relation : Relation) :
    (∃ ids, reachable start relation (after calls) = (.ok ids, after calls) ∧
      (after calls).graph.Found relation start ids) ∧
    ∀ threshold, ∃ h, Session.Yields (Hotspot.flagGroups threshold) (after calls).graph () h ∧
      ∀ n, (h.entity n).flag .aggregation = true ↔
        ((after calls).graph.entity n).flag .aggregation = true ∨
        ∃ v, ((after calls).graph.entity v).has .variationPoint = true ∧
          threshold.toNat ≤ {m | (after calls).graph.Reaches .composing v m}.ncard ∧
          (after calls).graph.Reaches .composing v n := by
  have hclosed := closed_after calls
  have hreachable : reachable start relation (after calls) =
      (.ok ((after calls).graph.reachable relation start), after calls) := by
    rw [after_eq]
    exact Gives.read (known_of_lt hstart _)
  exact ⟨⟨_, hreachable, Graph.found_reachable hclosed hstart⟩,
    Hotspot.yields_flagGroups_iff hclosed⟩

/-- Three nodes in a ring of compositions, one of which is there twice, and a fourth node below the
first. -/
def ring : List Write :=
  [.createNode "a" [.classType, .variationPoint], .createNode "b" [.classType],
    .createNode "c" [.classType], .createNode "d" [.classType], .createEdge 0 .composing 1,
    .createEdge 0 .composing 1, .createEdge 1 .composing 2, .createEdge 2 .composing 0,
    .createEdge 0 .extending 3]

theorem reachable_found_ring : 0 < (after ring).graph.size ∧
    reachable 0 .composing (after ring) = (.ok [0, 1, 2], after ring) ∧
    (∃ ids, reachable 0 .composing (after ring) = (.ok ids, after ring) ∧
      (after ring).graph.Found .composing 0 ids) ∧
    ∀ threshold, ∃ h, Session.Yields (Hotspot.flagGroups threshold) (after ring).graph () h ∧
      ∀ n, (h.entity n).flag .aggregation = true ↔
        ((after ring).graph.entity n).flag .aggregation = true ∨
        ∃ v, ((after ring).graph.entity v).has .variationPoint = true ∧
          threshold.toNat ≤ {m | (after ring).graph.Reaches .composing v m}.ncard ∧
          (after ring).graph.Reaches .composing v n := by
  have hstart : 0 < (after ring).graph.size := by decide +kernel
  exact ⟨hstart, rfl, reachable_found ring hstart .composing⟩

end Store

end Variability
