import Variability.Proofs.GenericTypes

/-!
# Taking written types apart

The arguments of a written type are found by a scan that counts open angle brackets and stops where
the first one is closed. What it looks for is described by a grammar, in which brackets stand in
pairs (`IsArguments`). Counting says the same without a grammar: behind the first bracket, all that
is open is closed by the last character and not before (`ClosesLast`). So it can be decided whether
a text is a list of arguments.

Three dots at the end of a written type are taken off before anything else. They stand for one more
dimension, and nothing else is read differently for them. Array brackets and dots between the angle
brackets belong to the arguments, whatever their number.

## Main results

* `Java.WrittenType.isArguments_iff`: generic arguments by counting.
* `Java.WrittenType.split_append_dots`: three dots are one more dimension.
* `Java.WrittenType.split_written_dots`: every written type is taken apart into what it is made of.
-/

namespace Variability.Java.WrittenType

/-! ### Counting brackets -/

variable {c : Char} {cs : List Char} {depth : Nat}

/-- A text in front of which `depth` angle brackets are open closes all of them, but only with its
last character: after every shorter beginning of the text some bracket is still open. -/
def ClosesLast (depth : Nat) (cs : List Char) : Prop :=
  depth + cs.count '<' = cs.count '>' ∧
    ∀ n < cs.length, (cs.take n).count '>' < depth + (cs.take n).count '<'

instance (depth : Nat) (cs : List Char) : Decidable (ClosesLast depth cs) :=
  inferInstanceAs (Decidable (_ ∧ ∀ n < cs.length, _))

theorem closesLast_nil : ClosesLast depth [] ↔ depth = 0 := by
  simp [ClosesLast]

/-- Where no bracket is open, nothing is left to close. -/
theorem closesLast_zero : ClosesLast 0 cs ↔ cs = [] := by
  constructor
  · rintro ⟨-, hopen⟩
    by_contra hcs
    exact absurd (hopen 0 (List.length_pos_iff.mpr hcs)) (by simp)
  · rintro rfl
    exact closesLast_nil.mpr rfl

theorem closesLast_cons : ClosesLast depth (c :: cs) ↔ 0 < depth ∧
    depth + (c :: cs).count '<' = (c :: cs).count '>' ∧
      ∀ n < cs.length, (c :: cs.take n).count '>' < depth + (c :: cs.take n).count '<' := by
  simp only [ClosesLast, List.length_cons, Nat.forall_lt_succ_left]
  simp only [List.take_zero, List.count_nil, List.take_succ_cons]
  tauto

theorem closesLast_plain (hopen : c ≠ '<') (hclose : c ≠ '>') :
    ClosesLast depth (c :: cs) ↔ 0 < depth ∧ ClosesLast depth cs := by
  rw [closesLast_cons]
  simp [ClosesLast, hopen, hclose]

theorem closesLast_open :
    ClosesLast depth ('<' :: cs) ↔ 0 < depth ∧ ClosesLast (depth + 1) cs := by
  rw [closesLast_cons]
  simp [ClosesLast, Nat.add_comm 1, Nat.add_assoc]

theorem closesLast_close : ClosesLast (depth + 1) ('>' :: cs) ↔ ClosesLast depth cs := by
  rw [closesLast_cons]
  simp [ClosesLast, Nat.add_right_comm]

/-- A balanced text does not change how many brackets are open. -/
theorem Balanced.closesLast_append {inner : List Char} (h : Balanced inner) (depth : Nat)
    (rest : List Char) :
    ClosesLast (depth + 1) (inner ++ rest) ↔ ClosesLast (depth + 1) rest := by
  induction h generalizing depth rest with
  | nil => rfl
  | plain hopen hclose _ ih =>
      rw [List.cons_append, closesLast_plain hopen hclose, ih]
      exact and_iff_right (Nat.succ_pos depth)
  | group _ _ ihinner ihrest =>
      rw [List.cons_append, List.append_assoc, List.cons_append, closesLast_open, ihinner,
        closesLast_close, ihrest]
      exact and_iff_right (Nat.succ_pos depth)

/-- While brackets are open, a text goes on balanced until the innermost of them is closed. -/
theorem ClosesLast.exists_balanced (h : ClosesLast (depth + 1) cs) :
    ∃ inner rest, Balanced inner ∧ cs = inner ++ '>' :: rest ∧ ClosesLast depth rest := by
  -- What follows a group is not the tail of the text, so the induction is on the length.
  induction hn : cs.length using Nat.strongRecOn generalizing cs depth with
  | ind n ih =>
      cases cs with
      | nil => cases closesLast_nil.mp h
      | cons c cs =>
          subst hn
          by_cases hopen : c = '<'
          · subst hopen
            obtain ⟨first, tail, hfirst, rfl, htail⟩ :=
              ih _ (Nat.lt_succ_self _) (closesLast_open.mp h).2 rfl
            obtain ⟨second, rest, hsecond, rfl, hrest⟩ := ih _ (by simp; omega) htail rfl
            exact ⟨_, rest, .group hfirst hsecond, by simp, hrest⟩
          · by_cases hclose : c = '>'
            · subst hclose
              exact ⟨[], cs, .nil, rfl, closesLast_close.mp h⟩
            · obtain ⟨inner, rest, hinner, rfl, hrest⟩ :=
                ih _ (Nat.lt_succ_self _) ((closesLast_plain hopen hclose).mp h).2 rfl
              exact ⟨c :: inner, rest, .plain hopen hclose hinner, rfl, hrest⟩

/-- **Generic arguments by counting**: they start with a bracket that is closed by their last
character and not before. -/
theorem isArguments_iff {args : String} :
    IsArguments args ↔ args.toList.head? = some '<' ∧ ClosesLast 1 args.toList.tail := by
  constructor
  · rintro ⟨inner, hinner, hargs⟩
    rw [hargs]
    refine ⟨rfl, (hinner.closesLast_append 0 ['>']).mpr ?_⟩
    exact closesLast_close.mpr (closesLast_nil.mpr rfl)
  · rintro ⟨hhead, hcloses⟩
    obtain ⟨inner, rest, hinner, htail, hrest⟩ := hcloses.exists_balanced
    rw [closesLast_zero.mp hrest] at htail
    exact ⟨inner, hinner, by rw [← htail, List.cons_head?_tail hhead]⟩

instance (args : String) : Decidable (IsArguments args) := decidable_of_iff _ isArguments_iff.symm

/-! ### Three dots -/

/-- Three dots after a text are taken off. -/
theorem dropDots_append (cs : List Char) : dropDots (cs ++ ['.', '.', '.']) = (cs, true) := by
  simp [dropDots]

/-- **Three dots are one more dimension.** -/
theorem split_append_dots {text : String} (h : IsTight text.toList) :
    split (text ++ "...") = { split text with dimensions := (split text).dimensions + 1 } := by
  have hdots : "...".toList = ['.', '.', '.'] := rfl
  have htrim : Text.trimChars (text.toList ++ ['.', '.', '.']) =
      text.toList ++ ['.', '.', '.'] := by
    apply trimChars_of_ends
    · intro c hc
      rw [List.head?_append, Option.mem_def, Option.or_eq_some_iff] at hc
      rcases hc with hc | ⟨-, hc⟩
      · exact h.head c hc
      · obtain rfl := Option.some.inj hc
        decide
    · intro c hc
      rw [List.getLast?_append] at hc
      obtain rfl := Option.some.inj hc
      decide
  simp only [split, splitChars, String.toList_append, hdots, htrim, dropDots_append, h.trimChars_eq,
    h.dropDots_eq]
  simp

/-- **Written types are taken apart exactly** into their names, their generic arguments, and their
dimensions, of which three dots are one more. -/
theorem split_written_dots {base args : String} (hbase : IsBase base)
    (hargs : args = "" ∨ IsArguments args) (k : Nat) (dots : Bool) :
    split (base ++ args ++ brackets k ++ if dots then "..." else "") =
      { base, arguments := args, dimensions := if dots then k + 1 else k } := by
  have hwritten := split_written hbase hargs k
  cases dots with
  | false => simpa using hwritten
  | true =>
      have htight : IsTight (base ++ args ++ brackets k).toList := by
        simpa [List.append_assoc] using isTight_written hbase hargs k
      rw [if_pos rfl, if_pos rfl, split_append_dots htight, hwritten]

theorem split_written_dots_map :
    IsBase "a.Map" ∧ IsArguments "<K[],List<? extends V[][]>>" ∧
      split "a.Map<K[],List<? extends V[][]>>[]..." =
        { base := "a.Map", arguments := "<K[],List<? extends V[][]>>", dimensions := 2 } := by
  have hbase : IsBase "a.Map" := by decide
  have hargs : IsArguments "<K[],List<? extends V[][]>>" := by decide +kernel
  exact ⟨hbase, hargs, split_written_dots hbase (.inr hargs) 1 true⟩

end Variability.Java.WrittenType
