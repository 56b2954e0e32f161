import Mathlib.Algebra.BigOperators.Group.List.Lemmas
import Mathlib.Algebra.GroupWithZero.Nat
import Mathlib.Algebra.Order.BigOperators.Group.List
import Mathlib.Data.List.Dedup
import Mathlib.Data.List.Nodup
import Mathlib.Data.String.Basic
import Variability.Variation.Metric

/-!
# Counting names

`NameCount.tally` keeps its counts by increasing name and counts one name after the other. The
counts it ends with are exactly those of the list of names: a name is counted if it occurs, and
with the number of its occurrences.

## Main results

* `NameCount.right_tally`: the counts are right and by strictly increasing name.
* `NameCount.mem_tally`: a count is in the tally exactly when it is right.
* `NameCount.perm_tally`: the tally lists the distinct names with their numbers.
* `Metric.overloads_tally_pos_iff`: some name is overloaded exactly when a name occurs twice.
* `Metric.sum_overloads_tally`: the overloads add up to the occurrences of repeated names.
-/

namespace Variability

namespace NameCount

/-- Counts by strictly increasing name. -/
def Sorted (counts : List NameCount) : Prop := counts.Pairwise (·.name < ·.name)

/-- Counting a name brings in no other name. -/
theorem name_of_mem_bump {name : String} {counts : List NameCount} {c : NameCount}
    (h : c ∈ bump name counts) : c.name = name ∨ ∃ c' ∈ counts, c'.name = c.name := by
  induction counts with
  | nil =>
      rw [bump, List.mem_singleton] at h
      exact Or.inl (h ▸ rfl)
  | cons d counts ih =>
      rw [bump] at h
      split at h
      · rcases List.mem_cons.mp h with rfl | h
        · exact Or.inl rfl
        · exact Or.inr ⟨c, h, rfl⟩
      · split at h
        · rename_i heq
          rcases List.mem_cons.mp h with rfl | h
          · exact Or.inl heq.symm
          · exact Or.inr ⟨c, List.mem_cons_of_mem _ h, rfl⟩
        · rcases List.mem_cons.mp h with rfl | h
          · exact Or.inr ⟨c, List.mem_cons_self, rfl⟩
          · rcases ih h with hname | ⟨c', hc', hname⟩
            · exact Or.inl hname
            · exact Or.inr ⟨c', List.mem_cons_of_mem _ hc', hname⟩

/-- Counting a name keeps the counts in order. -/
theorem Sorted.bump {counts : List NameCount} (h : Sorted counts) (name : String) :
    Sorted (bump name counts) := by
  induction counts with
  | nil => exact List.pairwise_singleton _ _
  | cons d counts ih =>
      obtain ⟨hd, htail⟩ := List.pairwise_cons.mp h
      rw [NameCount.bump]
      split
      · rename_i hlt
        refine List.pairwise_cons.mpr ⟨fun c hc => ?_, h⟩
        rcases List.mem_cons.mp hc with rfl | hc
        · exact hlt
        · exact lt_trans hlt (hd c hc)
      · rename_i hnlt
        split
        · exact List.pairwise_cons.mpr ⟨hd, htail⟩
        · rename_i hne
          refine List.pairwise_cons.mpr ⟨fun c hc => ?_, ih htail⟩
          rcases name_of_mem_bump hc with hname | ⟨c', hc', hname⟩
          · rw [hname]
            exact lt_of_le_of_ne (not_lt.mp hnlt) fun heq => hne heq.symm
          · rw [← hname]
            exact hd c' hc'

/-- The counts are right for a list of names: a name is counted exactly when it occurs, with the
number of its occurrences. -/
def Right (names : List String) (counts : List NameCount) : Prop :=
  ∀ c, c ∈ counts ↔ c.number = names.count c.name ∧ 0 < c.number

/-- Counting a name once more changes what is said about this name only: it is counted once if it
was not there, and once more if it was. -/
theorem mem_bump {counts : List NameCount} (h : Sorted counts) {name : String}
    {c : NameCount} :
    c ∈ bump name counts ↔ (c ∈ counts ∧ c.name ≠ name) ∨
      (c.name = name ∧ ((∃ d ∈ counts, d.name = name ∧ c.number = d.number + 1) ∨
        ((∀ d ∈ counts, d.name ≠ name) ∧ c.number = 1))) := by
  rcases c with ⟨n, k⟩
  induction counts with
  | nil =>
      simp [bump]
  | cons e counts ih =>
      obtain ⟨he, htail⟩ := List.pairwise_cons.mp h
      rw [bump]
      split
      · rename_i hlt
        have hnew : ∀ d ∈ e :: counts, d.name ≠ name := by
          intro d hd heq
          rcases List.mem_cons.mp hd with rfl | hd
          · exact absurd hlt (heq ▸ lt_irrefl _)
          · exact absurd (lt_trans hlt (he d hd)) (heq ▸ lt_irrefl _)
        grind
      · split
        · rename_i heq
          have hnew : ∀ d ∈ counts, d.name ≠ name := by
            intro d hd heq'
            exact absurd (he d hd) (heq' ▸ heq ▸ lt_irrefl _)
          grind
        · rename_i hne
          rw [List.mem_cons, ih htail]
          grind

/-- Counting a name once more keeps the counts right. -/
theorem Right.bump {names : List String} {counts : List NameCount} (h : Right names counts)
    (hsorted : Sorted counts) (name : String) : Right (names ++ [name]) (bump name counts) := by
  intro c
  rw [mem_bump hsorted, List.count_append, List.count_singleton]
  by_cases hname : c.name = name
  · subst hname
    -- The name was counted before exactly when it occurred before.
    have hbefore : ∀ d ∈ counts, d.name = c.name → d.number = names.count c.name := by
      intro d hd hdc
      rw [((h d).mp hd).1, hdc]
    by_cases hpos : 0 < names.count c.name
    · have hthere : (⟨c.name, names.count c.name⟩ : NameCount) ∈ counts := (h _).mpr ⟨rfl, hpos⟩
      simp only [ne_eq, not_true_eq_false, and_false, false_or, true_and, beq_self_eq_true,
        if_true]
      constructor
      · rintro (⟨d, hd, hdc, hnum⟩ | ⟨hnone, -⟩)
        · rw [hnum, hbefore d hd hdc]
          omega
        · exact absurd rfl (hnone ⟨c.name, names.count c.name⟩ hthere)
      · rintro ⟨hnum, -⟩
        exact Or.inl ⟨_, hthere, rfl, hnum⟩
    · have hzero : names.count c.name = 0 := Nat.eq_zero_of_not_pos hpos
      have hnone : ∀ d ∈ counts, d.name ≠ c.name := by
        intro d hd hdc
        have hdpos := ((h d).mp hd).2
        rw [hbefore d hd hdc, hzero] at hdpos
        exact absurd hdpos (Nat.lt_irrefl 0)
      simp only [ne_eq, not_true_eq_false, and_false, false_or, true_and, beq_self_eq_true,
        if_true, hzero]
      constructor
      · rintro (⟨d, hd, hdc, -⟩ | ⟨-, hnum⟩)
        · exact absurd hdc (hnone d hd)
        · omega
      · rintro ⟨hnum, -⟩
        exact Or.inr ⟨hnone, by omega⟩
  · have hne : (name == c.name) = false := by simpa using fun heq => hname heq.symm
    simp [hname, hne, h c]

/-- Counting more names on top of right counts in order. -/
theorem foldl_bump {names done : List String} {counts : List NameCount}
    (h : Right done counts) (hsorted : Sorted counts) :
    Right (done ++ names) (names.foldl (fun counts name => NameCount.bump name counts) counts) ∧
      Sorted (names.foldl (fun counts name => NameCount.bump name counts) counts) := by
  induction names generalizing done counts with
  | nil => exact ⟨by simpa using h, hsorted⟩
  | cons name names ih =>
      have hstep := ih (h.bump hsorted name) (hsorted.bump name)
      simpa using hstep

/-- A tally is right and in order. -/
theorem right_tally (names : List String) : Right names (tally names) ∧ Sorted (tally names) := by
  have hnil : Right [] [] := by
    intro c
    simp
  exact foldl_bump hnil List.Pairwise.nil

/-- **A tally is right.** A count is in it exactly when its name occurs, with the number of its
occurrences. -/
theorem mem_tally {names : List String} {c : NameCount} :
    c ∈ tally names ↔ c.number = names.count c.name ∧ 0 < c.number :=
  (right_tally names).1 c

theorem Sorted.nodup {counts : List NameCount} (h : Sorted counts) : counts.Nodup :=
  h.imp fun hlt heq => absurd (congrArg NameCount.name heq) (ne_of_lt hlt)

/-- A tally lists the distinct names, each with the number of its occurrences. -/
theorem perm_tally (names : List String) :
    (tally names).Perm (names.dedup.map fun name => ⟨name, names.count name⟩) := by
  have hinj : Function.Injective fun name : String => (⟨name, names.count name⟩ : NameCount) :=
    fun _ _ heq => congrArg NameCount.name heq
  refine (List.perm_ext_iff_of_nodup (right_tally names).2.nodup
    ((List.nodup_dedup names).map hinj)).mpr fun c => ?_
  rw [mem_tally, List.mem_map]
  constructor
  · rintro ⟨hnumber, hpos⟩
    refine ⟨c.name, List.mem_dedup.mpr (List.count_pos_iff.mp (hnumber ▸ hpos)), ?_⟩
    rw [← hnumber]
  · rintro ⟨name, hname, rfl⟩
    exact ⟨rfl, List.count_pos_iff.mpr (List.mem_dedup.mp hname)⟩

/-- The numbers of a tally add up to all occurrences. -/
theorem sum_tally (names : List String) : ((tally names).map (·.number)).sum = names.length := by
  rw [((perm_tally names).map _).sum_eq, List.map_map]
  exact List.sum_map_count_dedup_eq_length names

end NameCount

namespace Metric

/-- Some name is overloaded exactly when the names have a repetition. -/
theorem overloads_tally_pos_iff {names : List String} :
    0 < (overloads (NameCount.tally names)).length ↔ ¬ names.Nodup := by
  rw [List.length_pos_iff_exists_mem, List.nodup_iff_count_le_one]
  simp only [overloads, List.mem_filter, List.mem_map, decide_eq_true_eq, not_forall, not_le]
  constructor
  · rintro ⟨n, ⟨c, hc, rfl⟩, hn⟩
    rw [(NameCount.mem_tally.mp hc).1] at hn
    exact ⟨c.name, hn⟩
  · rintro ⟨name, hname⟩
    refine ⟨names.count name, ⟨⟨name, names.count name⟩, ?_, rfl⟩, hname⟩
    exact NameCount.mem_tally.mpr ⟨rfl, by simp only; omega⟩

/-- The overloads of a tally are the numbers of the names that occur more than once. -/
theorem perm_overloads_tally (names : List String) :
    (overloads (NameCount.tally names)).Perm
      ((names.dedup.filter fun name => 1 < names.count name).map (names.count ·)) := by
  have hperm := ((NameCount.perm_tally names).map (·.number)).filter fun k => decide (k > 1)
  rw [List.map_map, List.filter_map (f := _ ∘ _)] at hperm
  exact hperm

theorem length_overloads_tally (names : List String) :
    (overloads (NameCount.tally names)).length =
      (names.dedup.filter fun name => 1 < names.count name).length := by
  rw [(perm_overloads_tally names).length_eq, List.length_map]

theorem sum_overloads_tally (names : List String) :
    (overloads (NameCount.tally names)).sum = names.countP fun name => 1 < names.count name := by
  rw [(perm_overloads_tally names).sum_eq]
  exact List.sum_map_count_dedup_filter_eq_countP _ names

/-- Each overloaded name counts at least twice. -/
theorem two_mul_length_overloads_le (counts : List NameCount) :
    2 * (overloads counts).length ≤ (overloads counts).sum := by
  have hmany : ∀ k ∈ overloads counts, 2 ≤ k := fun k hk => by
    have hlt : 1 < k := by simpa using (List.mem_filter.mp hk).2
    exact hlt
  rw [Nat.mul_comm]
  exact List.card_nsmul_le_sum _ _ hmany

/-- The overloads are some of the numbers. -/
theorem sum_overloads_le (counts : List NameCount) :
    (overloads counts).sum ≤ (counts.map (·.number)).sum :=
  List.filter_sublist.sum_le_sum fun _ _ => Nat.zero_le _

end Metric

end Variability
