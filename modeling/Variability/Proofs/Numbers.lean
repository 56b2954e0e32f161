import Mathlib.Algebra.BigOperators.Ring.Finset
import Variability.Variation.Statistics
import Variability.Proofs.Detection
import Variability.Proofs.NameCount

/-!
# Numbers of 64 bits

Metrics are counts that are kept as numbers of 64 bits. The statistics add them up over all classes,
and the rule for overloads adds two of them, again in 64 bits. Cutting a count off commutes with
adding, so equations between metrics and totals need no bound (`Statistics.total_ofNat`). An order
of counts is one of numbers only where nothing is cut off.

A metric of a node counts edges that leave the node, each at most once. A store numbers its nodes
and its edges with 32 bits. So in every graph that a store can number (`Graph.Addressable`) the
metrics of detection fit, and the sums that are taken of them fit as well.

## Main results

* `Graph.length_targets_le`: a node has no more successors than edges.
* `AddsUp.of_nonneg`: small numbers add up to the sum of the integers.
* `Statistics.total_ofNat`: the total of counts is the count of the total.
* `Graph.Addressable.addsUp_total`: the total of a metric that counts edges is exact.
-/

namespace Variability

/-! ### Counting edges -/

namespace Graph

variable {g : Graph}

/-- The numbers of nodes and edges have 32 bits, as they have in a store. -/
structure Addressable (g : Graph) : Prop where
  size_le : g.size ≤ 2 ^ 32
  edges_le : g.edges.size ≤ 2 ^ 32

theorem Agree.addressable_iff {S : Trait → Prop} {h : Graph} (H : g.Agree S h) :
    h.Addressable ↔ g.Addressable := by
  constructor
  · exact fun ⟨hsize, hedges⟩ => ⟨H.size ▸ hsize, H.edges ▸ hedges⟩
  · exact fun ⟨hsize, hedges⟩ => ⟨H.size.symm ▸ hsize, H.edges.symm ▸ hedges⟩

/-- A node has no more successors than edges. -/
theorem length_targets_le (g : Graph) (relations : List Relation) (n : NodeId) :
    (g.targets relations n).length ≤ (g.edgesFrom n).length := by
  have hsubperm : (g.targets relations n).Subperm
      (((g.edgesFrom n).filter (·.relation.isAmong relations)).map (·.target)) :=
    List.subperm_of_subset (g.nodup_targets relations n) fun _ h => List.mem_eraseDups.mp h
  refine hsubperm.length_le.trans ?_
  rw [List.length_map]
  exact List.length_filter_le _ _

theorem memberCount_le (g : Graph) (n : NodeId) (ls : List Label) :
    g.memberCount n ls ≤ (g.edgesFrom n).length :=
  List.countP_le_length.trans (g.length_targets_le [] n)

theorem variantCount_le (g : Graph) (n : NodeId) :
    g.variantCount n ≤ (g.edgesFrom n).length :=
  List.countP_le_length.trans (g.length_targets_le Relation.inheritance n)

/-- Each neighbour with a label has its name listed once. -/
theorem length_memberNames (g : Graph) (n : NodeId) (l : Label) :
    (g.memberNames n l).length = g.memberCount n [l] := by
  rw [memberNames, List.length_map, memberCount, List.countP_eq_length_filter]
  simp

/-- At most all neighbours are counted. -/
theorem memberCount_ite_le (g : Graph) (n : NodeId) (ls : List Label) (c : Prop) [Decidable c] :
    (if c then g.memberCount n ls else 0) ≤ (g.edgesFrom n).length := by
  split
  · exact g.memberCount_le n ls
  · exact Nat.zero_le _

/-- Several neighbours count once. -/
theorem memberCount_several_le (g : Graph) (n : NodeId) (ls : List Label) :
    (if 1 < g.memberCount n ls then 1 else 0) ≤ (g.edgesFrom n).length := by
  have hle := g.memberCount_le n ls
  split <;> omega

/-- The overloads of a node are some of its neighbours. -/
theorem sum_overloads_le (g : Graph) (n : NodeId) (l : Label) :
    (Metric.overloads (NameCount.tally (g.memberNames n l))).sum ≤ g.memberCount n [l] := by
  have hsum := Metric.sum_overloads_le (NameCount.tally (g.memberNames n l))
  rwa [NameCount.sum_tally, length_memberNames] at hsum

/-- Each overloaded name stands for two neighbours at least. -/
theorem length_overloads_le (g : Graph) (n : NodeId) (l : Label) :
    (Metric.overloads (NameCount.tally (g.memberNames n l))).length ≤
      (g.edgesFrom n).length := by
  have htwo := Metric.two_mul_length_overloads_le (NameCount.tally (g.memberNames n l))
  have hsum := g.sum_overloads_le n l
  have hcount := g.memberCount_le n [l]
  omega

/-- The edges of some nodes that meet a condition, counted node by node. -/
theorem sum_countP_source (g : Graph) (c : Edge → Bool) {ids : List NodeId} (hids : ids.Nodup) :
    (ids.map fun id => g.edges.toList.countP fun e => c e && e.source == id).sum =
      g.edges.toList.countP fun e => c e && ids.contains e.source := by
  induction ids with
  | nil => simp
  | cons id ids ih =>
      obtain ⟨hid, hids⟩ := List.nodup_cons.mp hids
      have hsplit := List.countP_eq_countP_filter_add g.edges.toList
        (fun e => c e && (id :: ids).contains e.source) (·.source == id)
      rw [List.map_cons, List.sum_cons, ih hids, hsplit, List.countP_filter, List.countP_filter]
      congr 1
      · refine List.countP_congr fun e _ => ?_
        simp only [List.contains_cons, Bool.and_eq_true, Bool.or_eq_true, beq_iff_eq]
        tauto
      · refine List.countP_congr fun e _ => ?_
        simp only [List.contains_cons, Bool.and_eq_true, Bool.or_eq_true, beq_iff_eq,
          List.contains_iff_mem, Bool.not_eq_true', beq_eq_false_iff_ne]
        constructor
        · rintro ⟨hc, hmem⟩
          exact ⟨⟨hc, Or.inr hmem⟩, fun heq => hid (heq ▸ hmem)⟩
        · rintro ⟨⟨hc, hmem⟩, hne⟩
          exact ⟨hc, hmem.resolve_left hne⟩

/-- No edge leaves two nodes. -/
theorem sum_length_edgesFrom_le (g : Graph) {ids : List NodeId} (hids : ids.Nodup) :
    (ids.map fun id => (g.edgesFrom id).length).sum ≤ g.edges.size := by
  have hsum := g.sum_countP_source (fun _ => true) hids
  simp only [Bool.true_and, List.countP_eq_length_filter, ← edgesFrom_eq] at hsum
  rw [hsum]
  exact List.length_filter_le _ _

/-- A node of an addressable graph has few edges. -/
theorem Addressable.length_edgesFrom_le (hg : g.Addressable) (n : NodeId) :
    (g.edgesFrom n).length ≤ 2 ^ 32 := by
  have hle := g.sum_length_edgesFrom_le (List.nodup_singleton n)
  rw [List.map_singleton, List.sum_singleton] at hle
  exact hle.trans hg.edges_le

theorem Addressable.lt_of_le_edgesFrom (hg : g.Addressable) {n : NodeId} {k : Nat}
    (hk : k ≤ (g.edgesFrom n).length) : k < 2 ^ 63 := by
  have hle := hg.length_edgesFrom_le n
  omega

/-- A count of edges that leave a node keeps its value. -/
theorem Addressable.toInt_ofNat (hg : g.Addressable) {n : NodeId} {k : Nat}
    (hk : k ≤ (g.edgesFrom n).length) : (Int64.ofNat k).toInt = k :=
  Int64.toInt_ofNat_of_lt (hg.lt_of_le_edgesFrom hk)

/-- Counts of edges are ordered as numbers. -/
theorem Addressable.ofNat_lt_ofNat_iff (hg : g.Addressable) {n : NodeId} {m k : Nat}
    (hm : m < 2 ^ 63) (hk : k ≤ (g.edgesFrom n).length) :
    Int64.ofNat m < Int64.ofNat k ↔ m < k :=
  Int64.ofNat_lt_iff_lt hm (hg.lt_of_le_edgesFrom hk)

/-- A metric that counts edges reads as its count. -/
theorem Addressable.toInt_count (hg : g.Addressable) {p : Property} {n : NodeId} {k : Nat}
    (h : (g.entity n).int? p = some (.ofNat k)) (hk : k ≤ (g.edgesFrom n).length) :
    ((g.entity n).count p).toInt = k := by
  rw [Entity.count, h, Option.getD_some, hg.toInt_ofNat hk]

end Graph

/-! ### Sums -/

/-- Numbers can be added to a first one, one after the other, and no sum on the way needs more than
64 bits. -/
def AddsUp : Int64 → List Int64 → Prop
  | _, [] => True
  | n, m :: ms => (n + m).toInt = n.toInt + m.toInt ∧ AddsUp (n + m) ms

/-- A sum that fits is not cut off. -/
theorem toInt_add_of_lt {n m : Int64} (hle : 0 ≤ n.toInt + m.toInt)
    (hlt : n.toInt + m.toInt < 2 ^ 63) : (n + m).toInt = n.toInt + m.toInt := by
  rw [Int64.toInt_add]
  exact Int.bmod_eq_of_le (by omega) (by omega)

theorem AddsUp.pair {n m : Int64} (hle : 0 ≤ n.toInt + m.toInt)
    (hlt : n.toInt + m.toInt < 2 ^ 63) : AddsUp n [m] :=
  ⟨toInt_add_of_lt hle hlt, trivial⟩

/-- **Small numbers add up**, and the last sum is that of the integers. -/
theorem AddsUp.of_nonneg {n : Int64} {ms : List Int64} (hn : 0 ≤ n.toInt)
    (hms : ∀ m ∈ ms, 0 ≤ m.toInt) (hsum : n.toInt + (ms.map Int64.toInt).sum < 2 ^ 63) :
    AddsUp n ms ∧ (ms.foldl (· + ·) n).toInt = n.toInt + (ms.map Int64.toInt).sum := by
  induction ms generalizing n with
  | nil => simp [AddsUp]
  | cons m ms ih =>
      obtain ⟨hm, hms⟩ := List.forall_mem_cons.mp hms
      rw [List.map_cons, List.sum_cons] at hsum
      have hrest : 0 ≤ (ms.map Int64.toInt).sum := List.sum_nonneg (by simpa using hms)
      have hadd : (n + m).toInt = n.toInt + m.toInt := toInt_add_of_lt (by omega) (by omega)
      obtain ⟨hup, hlast⟩ := ih (n := n + m) (by omega) hms (by omega)
      refine ⟨⟨hadd, hup⟩, ?_⟩
      rw [List.foldl_cons, hlast, hadd, List.map_cons, List.sum_cons, Int.add_assoc]

namespace Statistics

/-- **The total of counts is the count of the total**, whatever is cut off. -/
theorem total_ofNat {nodes : List Node} {p : Property} {count : Node → Nat}
    (h : ∀ n ∈ nodes, n.count p = .ofNat (count n)) :
    total nodes p = .ofNat (nodes.map count).sum := by
  have hfold : ∀ a : Nat, (nodes.filterMap (·.int? p)).foldl (· + ·) (Int64.ofNat a) =
      .ofNat (a + (nodes.map count).sum) := by
    induction nodes with
    | nil => exact fun a => rfl
    | cons n nodes ih =>
        intro a
        obtain ⟨hn, hnodes⟩ := List.forall_mem_cons.mp h
        rw [Entity.count] at hn
        rw [List.map_cons, List.sum_cons, ← Nat.add_assoc, ← ih hnodes, Int64.ofNat_add, ← hn,
          List.filterMap_cons]
        cases n.int? p with
        | none => rw [Option.getD_none, Int64.add_zero]
        | some k => rw [Option.getD_some, List.foldl_cons]
  have htotal := hfold 0
  rwa [Nat.zero_add] at htotal

/-- A property that is unset counts for nothing. -/
theorem sum_toInt_filterMap (nodes : List Node) (p : Property) :
    ((nodes.filterMap (·.int? p)).map Int64.toInt).sum =
      (nodes.map fun n => (n.count p).toInt).sum := by
  induction nodes with
  | nil => rfl
  | cons n nodes ih =>
      rw [List.map_cons, List.sum_cons, ← ih, List.filterMap_cons, Entity.count]
      cases n.int? p with
      | none => rw [Option.getD_none, Int64.toInt_zero, Int.zero_add]
      | some k => rw [Option.getD_some, List.map_cons, List.sum_cons]

end Statistics

namespace Graph

variable {g : Graph}

/-- The number that a node has as a property counts some of its edges, each once. -/
def CountsEdges (g : Graph) (p : Property) (n : NodeId) : Prop :=
  0 ≤ ((g.entity n).count p).toInt ∧ ((g.entity n).count p).toInt ≤ (g.edgesFrom n).length

theorem Addressable.countsEdges (hg : g.Addressable) {p : Property} {n : NodeId} {k : Nat}
    (h : (g.entity n).int? p = some (.ofNat k)) (hk : k ≤ (g.edgesFrom n).length) :
    g.CountsEdges p n := by
  rw [CountsEdges, hg.toInt_count h hk]
  omega

/-- Counts of edges of several nodes are counts of different edges. -/
theorem sum_countsEdges_le {p : Property} {ids : List NodeId} (hids : ids.Nodup)
    (h : ∀ n ∈ ids, g.CountsEdges p n) :
    (ids.map fun n => ((g.entity n).count p).toInt).sum ≤ g.edges.size := by
  have hle : (ids.map fun n => ((g.entity n).count p).toInt).sum ≤
      (ids.map fun n => ((g.edgesFrom n).length : Int)).sum :=
    List.sum_le_sum fun n hn => (h n hn).2
  have hedges := g.sum_length_edgesFrom_le hids
  have hcast : ((ids.map fun n => (g.edgesFrom n).length).sum : Int) =
      (ids.map fun n => ((g.edgesFrom n).length : Int)).sum := by
    rw [Nat.cast_list_sum, List.map_map]
    rfl
  omega

/-- **The total of a metric that counts edges is exact**, and so is every sum on the way to it. -/
theorem Addressable.addsUp_total (hg : g.Addressable) {c : Entity → Bool} {p : Property}
    (h : ∀ n, c (g.entity n) = true → g.CountsEdges p n) :
    AddsUp 0 (((g.idsWhere c).map g.nodeAt).filterMap (·.int? p)) ∧
      (Statistics.total ((g.idsWhere c).map g.nodeAt) p).toInt =
        ((g.idsWhere c).map fun n => ((g.entity n).count p).toInt).sum := by
  have hcounts : ∀ n ∈ g.idsWhere c, g.CountsEdges p n := fun n hn => h n (mem_idsWhere.mp hn).2
  have hnodes := Statistics.sum_toInt_filterMap ((g.idsWhere c).map g.nodeAt) p
  rw [List.map_map] at hnodes
  have hsum : ((((g.idsWhere c).map g.nodeAt).filterMap (·.int? p)).map Int64.toInt).sum =
      ((g.idsWhere c).map fun n => ((g.entity n).count p).toInt).sum := hnodes
  have hids : (g.idsWhere c).Nodup := List.nodup_range.filter _
  have hle := sum_countsEdges_le hids hcounts
  have hedges := hg.edges_le
  have hnonneg : ∀ m ∈ ((g.idsWhere c).map g.nodeAt).filterMap (·.int? p), 0 ≤ m.toInt := by
    intro m hm
    obtain ⟨node, hnode, hint⟩ := List.mem_filterMap.mp hm
    obtain ⟨n, hn, rfl⟩ := List.mem_map.mp hnode
    have hcount := (hcounts n hn).1
    rwa [Entity.count, show (g.entity n).int? p = some m from hint] at hcount
  have hup := AddsUp.of_nonneg (n := 0) (Int.le_refl 0) hnonneg (by
    rw [hsum, Int64.toInt_zero]
    omega)
  rwa [hsum, Int64.toInt_zero, Int.zero_add] at hup

/-- A total of counts of edges is a count of edges. -/
theorem Addressable.total_bounds (hg : g.Addressable) {c : Entity → Bool} {p : Property}
    (h : ∀ n, c (g.entity n) = true → g.CountsEdges p n) :
    0 ≤ (Statistics.total ((g.idsWhere c).map g.nodeAt) p).toInt ∧
      (Statistics.total ((g.idsWhere c).map g.nodeAt) p).toInt ≤ 2 ^ 32 := by
  have hcounts : ∀ n ∈ g.idsWhere c, g.CountsEdges p n := fun n hn => h n (mem_idsWhere.mp hn).2
  have hids : (g.idsWhere c).Nodup := List.nodup_range.filter _
  have hle := sum_countsEdges_le hids hcounts
  have hedges := hg.edges_le
  rw [(hg.addsUp_total h).2]
  refine ⟨List.sum_nonneg ?_, by omega⟩
  rintro _ hk
  obtain ⟨n, hn, rfl⟩ := List.mem_map.mp hk
  exact (hcounts n hn).1

/-- The number of nodes that meet a condition keeps its value. -/
theorem Addressable.toInt_length_idsWhere (hg : g.Addressable) (c : Entity → Bool) :
    (Int64.ofNat (g.idsWhere c).length).toInt = (g.idsWhere c).length ∧
      (g.idsWhere c).length ≤ 2 ^ 32 := by
  have hle : (g.idsWhere c).length ≤ g.size := by
    refine (List.length_filter_le _ _).trans ?_
    rw [List.length_range]
  have hsize := hg.size_le
  exact ⟨Int64.toInt_ofNat_of_lt (by omega), by omega⟩

end Graph

end Variability
