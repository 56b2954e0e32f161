import Mathlib.Data.List.Basic
import Variability.Proofs.History

/-!
# Types of a package

A type of a package is looked for by a simple name, which may have dots of its own where the type is
nested. Its full name begins with the package and ends in the simple name, and a dot stands after the
one and before the other. The search does not go through all nodes. It reads those that are filed
under the last segment of the simple name, in the order in which they are filed.

A full name that ends in a dot and a simple name has the last segment of the simple name. So no type
of the package is filed elsewhere, and the search finds what a scan of all nodes finds.

## Main results

* `Name.lastSegment_eq_of_ends`: a name ends in the last segment of its end.
* `Graph.filter_idsWithLastSegment`: among the nodes with the last segment are all types of the
  package, in the order of creation.
* `Session.findInPackage_eq_find?`: the search finds the first type of the package.
-/

namespace Variability

/-! ### Beginnings and ends of names -/

theorem Text.startsWith_iff {s start : String} :
    startsWith s start = true ↔ ∃ rest, s = start ++ rest := by
  rw [startsWith, List.isPrefixOf_iff_prefix]
  constructor
  · rintro ⟨rest, hrest⟩
    exact ⟨String.ofList rest, String.toList_inj.mp (by simp [← hrest])⟩
  · rintro ⟨rest, rfl⟩
    exact ⟨rest.toList, by simp⟩

theorem Text.endsWith_iff {s ending : String} :
    endsWith s ending = true ↔ ∃ front, s = front ++ ending := by
  rw [endsWith, List.isSuffixOf_iff_suffix]
  constructor
  · rintro ⟨front, hfront⟩
    exact ⟨String.ofList front, String.toList_inj.mp (by simp [← hfront])⟩
  · rintro ⟨front, rfl⟩
    exact ⟨front.toList, by simp⟩

/-- A name ends in the last segment of what it ends in. -/
theorem Name.lastSegment_eq_of_ends {front simple name : String}
    (h : name = front ++ "." ++ simple) : lastSegment name = lastSegment simple := by
  obtain ⟨hdot, hends⟩ := lastSegment_eq_iff.mp (rfl : lastSegment simple = lastSegment simple)
  rw [lastSegment_eq_iff]
  refine ⟨hdot, .inr ?_⟩
  generalize lastSegment simple = last at hends
  rcases hends with rfl | ⟨inner, rfl⟩
  · exact ⟨front, h⟩
  · exact ⟨front ++ "." ++ inner, by simp [h, String.append_assoc]⟩

/-! ### Types of a package -/

/-- The entity is a class or an interface, and its name starts with `package.` and ends with
`.simple`. Where nothing stands between the two, they share the dot. -/
def Entity.InPackage (e : Entity) (package simple : String) : Prop :=
  (e.has .classType = true ∨ e.has .interfaceType = true) ∧
    (∃ rest, e.name = package ++ "." ++ rest) ∧ ∃ front, e.name = front ++ "." ++ simple

theorem Entity.isInPackage_iff {e : Entity} {package simple : String} :
    e.isInPackage simple package = true ↔ e.InPackage package simple := by
  simp only [isInPackage, isType, Bool.and_eq_true, Bool.or_eq_true, Text.startsWith_iff,
    Text.endsWith_iff, InPackage, String.append_assoc, and_assoc]

instance (e : Entity) (package simple : String) : Decidable (e.InPackage package simple) :=
  decidable_of_iff _ Entity.isInPackage_iff

theorem Entity.isInPackage_eq (e : Entity) (package simple : String) :
    e.isInPackage simple package = decide (e.InPackage package simple) := by
  rw [Bool.eq_iff_iff, isInPackage_iff, decide_eq_true_iff]

/-- A type of a package is filed under the last segment of the simple name. -/
theorem Entity.InPackage.lastSegment {e : Entity} {package simple : String}
    (h : e.InPackage package simple) : Name.lastSegment e.name = Name.lastSegment simple := by
  obtain ⟨-, -, front, hfront⟩ := h
  exact Name.lastSegment_eq_of_ends hfront

namespace Graph

variable (g : Graph) (package simple : String)

/-- Narrowing nodes to those with the last segment of the simple name loses no type of a package. -/
theorem idsWhere_lastSegment_and :
    (g.idsWhere fun e => Name.lastSegment e.name == Name.lastSegment simple &&
      decide (e.InPackage package simple)) = g.idsWhere fun e => e.InPackage package simple := by
  refine List.filter_congr fun id _ => ?_
  rw [Bool.eq_iff_iff, Bool.and_eq_true, beq_iff_eq, decide_eq_true_iff]
  exact and_iff_right_of_imp Entity.InPackage.lastSegment

/-- **Among the nodes with the last segment are all types of the package**, in the order of
creation. -/
theorem filter_idsWithLastSegment :
    ((g.idsWithLastSegment (Name.lastSegment simple)).filterMap g.node?).filter
        (·.InPackage package simple) = g.nodes.filter (·.InPackage package simple) := by
  have hread : (g.idsWithLastSegment (Name.lastSegment simple)).filterMap g.node? =
      (g.idsWithLastSegment (Name.lastSegment simple)).map g.nodeAt := by
    rw [idsWithLastSegment_eq, ← List.filterMap_eq_map]
    exact List.filterMap_congr fun id hid => node?_of_lt (mem_idsWhere.mp hid).1
  rw [hread, g.filter_nodes fun e => e.InPackage package simple, ← idsWhere_lastSegment_and,
    ← filter_idsWhere, List.filter_map, idsWithLastSegment_eq]
  rfl

end Graph

/-- **The search finds the first type of the package.** On every store, whatever has been called on
it, and for all texts, the answer is that of a scan of all nodes in the order of creation. The nodes
that the search reads contain all types of the package, in the same order. -/
theorem Session.findInPackage_eq_find? (policy : RetryPolicy) (calls : List Store.Write)
    (simple package : String) :
    ∃ found narrowed,
      findInPackage simple package policy (.after calls) = (.ok found, .after calls) ∧
      found = (Store.after calls).graph.nodes.find? (·.InPackage package simple) ∧
      (found = none ↔ ∀ n ∈ (Store.after calls).graph.nodes, ¬ n.InPackage package simple) ∧
      Store.idsWithLastSegment (Name.lastSegment simple) (.after calls) =
        (.ok narrowed, .after calls) ∧
      (narrowed.filterMap (Store.after calls).graph.node?).filter (·.InPackage package simple) =
        (Store.after calls).graph.nodes.filter (·.InPackage package simple) := by
  rw [Store.after_eq]
  generalize (Store.after calls).graph = g
  have hfound := yields_findInPackage (g := g) simple package policy
  simp only [Entity.isInPackage_eq] at hfound
  rw [Graph.firstWhere, g.idsWhere_lastSegment_and, ← Graph.filter_nodes, List.head?_filter]
    at hfound
  refine ⟨_, _, hfound, rfl, ?_, Store.Gives.read rfl, g.filter_idsWithLastSegment package simple⟩
  simp [List.find?_eq_none]

end Variability
