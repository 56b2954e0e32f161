import Variability.Proofs.Metrics

/-!
# Neighbours that share a name

The neighbours of a node that carry a label are counted by name in three steps. The ends of the
edges that leave the node are listed, each once; those without the label are left out; and the names
of the rest are tallied. The steps keep lists of different things: of numbers, of nodes and of names.
Together they divide one set by name, that of the neighbours with the label. No neighbour is missing,
none counts twice, whatever edges lead to it, and every group has a member.

## Main results

* `Graph.count_memberNames`: a name is listed once for each neighbour that has it.
* `Graph.groupsByName_tally`: the tally of the names divides the neighbours by name.
* `Store.countSameName_groups`: what is counted, on every store and for every node.
-/

namespace Variability

namespace Graph

/-- A name is listed once for each neighbour that has it. -/
theorem count_memberNames (g : Graph) (n : NodeId) (l : Label) (name : String) :
    (g.memberNames n l).count name =
      {m | g.Member l n m ∧ (g.entity m).name = name}.ncard := by
  rw [List.count_eq_countP, countP_memberNames, List.countP_eq_length_filter]
  refine (ncard_eq_length ((nodup_members g n l).filter _) fun m => ?_).symm
  rw [List.mem_filter, List.mem_filter, mem_targets_nil, beq_iff_eq]
  rfl

theorem mem_memberNames {g : Graph} {n : NodeId} {l : Label} {name : String} :
    name ∈ g.memberNames n l ↔ ∃ m, g.Member l n m ∧ (g.entity m).name = name := by
  simp [memberNames, mem_targets_nil, Member]

/-- The counts divide the neighbours of a node that carry a label by name. -/
structure GroupsByName (g : Graph) (n : NodeId) (l : Label) (counts : List NameCount) : Prop where
  sorted : counts.Pairwise (·.name < ·.name)
  /-- The names are those of the neighbours. -/
  occurs : ∀ name, (∃ c ∈ counts, c.name = name) ↔
    ∃ m, g.Member l n m ∧ (g.entity m).name = name
  /-- A name comes with the number of the neighbours that have it. -/
  number : ∀ c ∈ counts, 1 ≤ c.number ∧
    c.number = {m | g.Member l n m ∧ (g.entity m).name = c.name}.ncard
  /-- All neighbours are counted. -/
  sum : (counts.map (·.number)).sum = {m | g.Member l n m}.ncard

/-- **The tally of the names divides the neighbours by name.** -/
theorem groupsByName_tally (g : Graph) (n : NodeId) (l : Label) :
    g.GroupsByName n l (NameCount.tally (g.memberNames n l)) where
  sorted := (NameCount.right_tally _).2
  occurs name := by
    rw [← mem_memberNames, ← List.count_pos_iff]
    constructor
    · rintro ⟨c, hc, rfl⟩
      obtain ⟨hnumber, hpos⟩ := NameCount.mem_tally.mp hc
      exact hnumber ▸ hpos
    · exact fun hpos => ⟨⟨name, (g.memberNames n l).count name⟩,
        NameCount.mem_tally.mpr ⟨rfl, hpos⟩, rfl⟩
  number c hc := by
    obtain ⟨hnumber, hpos⟩ := NameCount.mem_tally.mp hc
    exact ⟨hpos, hnumber.trans (count_memberNames g n l c.name)⟩
  sum := by
    rw [NameCount.sum_tally, length_memberNames, memberCount_singleton]

end Graph

namespace Store

/-- **Neighbours are counted by name.** Whatever has been called on the store, for every node that
exists and every label, the neighbours of the node with the label are divided by name and counted,
under every retry policy, and the store stays as it is. -/
theorem countSameName_groups (calls : List Write) {id : NodeId}
    (hid : id < (after calls).graph.size) (label : Label) :
    ∃ counts, (∀ policy, Session.countSameName id label policy (after calls) =
        (.ok counts, after calls)) ∧
      (after calls).graph.GroupsByName id label counts := by
  refine ⟨_, fun policy => ?_, Graph.groupsByName_tally _ id label⟩
  have hcount := Session.yields_countSameName (closed_after calls) hid label policy
  rwa [← after_eq] at hcount

/-- A class with two methods of one name, to one of which several edges lead, a method of another
name, and a constructor. -/
def overloading : List Write :=
  [.createNode "a.C" [.classType], .createNode "run" [.method], .createNode "close" [.method],
    .createNode "run" [.method], .createNode "run" [.constructor], .createEdge 0 .member 1,
    .createEdge 0 .composing 1, .createEdge 0 .member 1, .createEdge 0 .member 2,
    .createEdge 0 .member 3, .createEdge 0 .member 4]

theorem countSameName_groups_overloading :
    0 < (after overloading).graph.size ∧
    Session.countSameName 0 .method {} (after overloading) =
      (.ok [{ name := "close", number := 1 }, { name := "run", number := 2 }],
        after overloading) ∧
    ∃ counts, (∀ policy, Session.countSameName 0 .method policy (after overloading) =
        (.ok counts, after overloading)) ∧
      (after overloading).graph.GroupsByName 0 .method counts := by
  have hid : 0 < (after overloading).graph.size := by decide +kernel
  exact ⟨hid, rfl, countSameName_groups overloading hid .method⟩

end Store

end Variability
