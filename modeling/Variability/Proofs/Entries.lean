import Variability.Proofs.Documents
import Variability.Proofs.Metrics

/-!
# A document agrees with itself

The entry of a node holds numbers twice: the metrics, which detection has stored on the node, and
lists of the methods and constructors by name, which are counted when the document is built. Both
count the neighbours of the node, each once, so for a class the lists determine the metrics. A node
that is listed twice has one entry, apart from the interfaces that are only kept for the list of all
types.

## Main results

* `Graph.Measured.entry_consistent`: the lists of a class determine its metrics.
* `Graph.nodes_document`, `Graph.allNodes_document`: which nodes are listed, in which order.
* `Document.build_agrees`: every document that is built after detection agrees with itself.
-/

namespace Variability

open Session

/-! ### Entries of classes -/

/-- How many methods or constructors a list of an entry stands for. -/
def NameCount.total (counts : List NameCount) : Nat := (counts.map (·.number)).sum

/-- The lists of an entry determine its metrics. -/
structure DocumentNode.Consistent (e : DocumentNode) : Prop where
  methodPoints : e.methodPoints = some (.ofNat (e.methods.filter (1 < ·.number)).length)
  methodVariants : e.methodVariants =
    some (.ofNat (NameCount.total (e.methods.filter (1 < ·.number))))
  allMethods : e.allMethods = some (.ofNat (NameCount.total e.methods))
  publicMethods : ∃ k ≤ NameCount.total e.methods, e.publicMethods = some (.ofNat k)
  constructorPoints : e.constructorPoints =
    some (.ofNat (if 1 < NameCount.total e.constructors then 1 else 0))
  constructorVariants : e.constructorVariants = some (.ofNat
    (if 1 < NameCount.total e.constructors then NameCount.total e.constructors else 0))

theorem Metric.overloads_eq (counts : List NameCount) :
    overloads counts = (counts.filter (1 < ·.number)).map (·.number) := by
  rw [overloads, List.filter_map]
  rfl

namespace Graph

variable {g : Graph} {n : NodeId}

/-- The numbers of an entry's list add up to the neighbours with the label. -/
theorem total_nameCounts (g : Graph) (n : NodeId) (l : Label) :
    NameCount.total (g.nameCounts n l) = g.memberCount n [l] := by
  rw [NameCount.total, nameCounts, NameCount.sum_tally, length_memberNames]

/-- **The lists of a class determine its metrics.** -/
theorem Measured.entry_consistent (h : g.Measured n) (withInterfaces : Bool) :
    (g.entry withInterfaces n).Consistent := by
  constructor
  case methodPoints =>
    refine h.methodPoints.trans ?_
    rw [Metric.overloads_eq, List.length_map]
    rfl
  case methodVariants =>
    refine h.methodVariants.trans ?_
    rw [Metric.overloads_eq]
    rfl
  case allMethods =>
    refine h.allMethods.trans ?_
    rw [← total_nameCounts]
    rfl
  case publicMethods =>
    refine ⟨_, ?_, h.publicMethods⟩
    have hall : g.memberCount n [.method, .exposed] ≤ NameCount.total (g.nameCounts n .method) :=
      (g.memberCount_cons_le n .method [.exposed]).trans_eq (total_nameCounts g n .method).symm
    split
    · exact hall
    · exact Nat.zero_le _
  case constructorPoints =>
    refine h.constructorPoints.trans ?_
    rw [← total_nameCounts]
    rfl
  case constructorVariants =>
    refine h.constructorVariants.trans ?_
    rw [← total_nameCounts]
    rfl

/-! ### What is listed -/

/-- Mapping the nodes that meet a condition. -/
theorem filterMap_range_size {α : Type} (g : Graph) (c : Entity → Bool) (f : NodeId → α) :
    (List.range g.size).filterMap (fun n => if c (g.entity n) then some (f n) else none) =
      (g.idsWhere c).map f := by
  rw [idsWhere, ← List.filterMap_eq_map, List.filterMap_filter]
  rfl

/-- The varying nodes in scope are listed in creation order. -/
theorem nodes_document (g : Graph) :
    g.document.nodes =
      (g.idsWhere fun e => !e.isOutOfScope && Document.varies e).map (g.entry false) :=
  g.filterMap_range_size (fun e => !e.isOutOfScope && Document.varies e) (g.entry false)

/-- All types in scope are listed in creation order. -/
theorem allNodes_document (g : Graph) :
    g.document.allNodes =
      (g.idsWhere fun e => !e.isOutOfScope && e.isType).map (g.entry true) :=
  g.filterMap_range_size (fun e => !e.isOutOfScope && e.isType) (g.entry true)

end Graph

theorem Label.text_injective : Function.Injective text := fun l l' =>
  List.inj_on_of_nodup_map (l := all) (by decide) (mem_all l) (mem_all l')

namespace Graph

variable {g : Graph}

/-- An entry shows the labels of its node. -/
theorem text_mem_types_entry {n : NodeId} {l : Label} {withInterfaces : Bool} :
    l.text ∈ (g.entry withInterfaces n).types ↔ (g.entity n).has l = true := by
  rw [entry, List.mem_map_of_injective Label.text_injective, LabelSet.mem_toList]
  rfl

/-- The entries of classes are consistent where all classes have their metrics. -/
theorem consistent_of_mem_document
    (h : ∀ n, (g.entity n).has .classType = true → g.Measured n) {e : DocumentNode}
    (he : e ∈ g.document.nodes ++ g.document.allNodes)
    (hclass : Label.classType.text ∈ e.types) : e.Consistent := by
  have hentry : ∃ withInterfaces n, g.entry withInterfaces n = e := by
    rw [nodes_document, allNodes_document, List.mem_append, List.mem_map, List.mem_map] at he
    rcases he with ⟨n, -, hn⟩ | ⟨n, -, hn⟩
    · exact ⟨false, n, hn⟩
    · exact ⟨true, n, hn⟩
  obtain ⟨withInterfaces, n, rfl⟩ := hentry
  exact (h n (text_mem_types_entry.mp hclass)).entry_consistent withInterfaces

end Graph

/-- **A document agrees with itself.** After detection on any store, whatever has been called on it,
the document can be built. It lists the varying nodes and the types in scope. A node that is in both
lists has the same entry in both, apart from the interfaces. In each entry of a class, the lists of
methods and constructors determine the metrics. -/
theorem Document.build_agrees (policy : RetryPolicy) (calls : List Store.Write) :
    ∃ d doc, Variation.detect policy (.after calls) = (.ok (), { graph := d }) ∧
      build policy { graph := d } = (.ok doc, { graph := d }) ∧
      (Store.after calls).graph.Agree Trait.IsGiven d ∧
      doc.nodes = (d.idsWhere fun e => !e.isOutOfScope && varies e).map (d.entry false) ∧
      doc.allNodes = (d.idsWhere fun e => !e.isOutOfScope && e.isType).map (d.entry true) ∧
      (∀ n, d.entry false n = { d.entry true n with interfaceAttributes := none }) ∧
      ∀ e ∈ doc.nodes ++ doc.allNodes, Label.classType.text ∈ e.types → e.Consistent := by
  rw [Store.after_eq]
  have hclosed := Store.closed_after calls
  have hagree := Variation.agree_detected (Store.after calls).graph
  have hmeasured := fun n => Variation.measured_detected (Store.after calls).graph (n := n)
  have hdetect := Variation.applies_detect hclosed policy
  generalize Rule.applyAll Variation.rules (Store.after calls).graph = d at *
  exact ⟨d, d.document, hdetect, yields_build (hagree.closed hclosed) policy, hagree,
    d.nodes_document, d.allNodes_document, fun _ => rfl,
    fun e => Graph.consistent_of_mem_document hmeasured⟩

end Variability
