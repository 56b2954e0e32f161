import Mathlib.Data.List.Basic
import Variability.Proofs.Invocations

/-!
# References with generic arguments

A written type has a name, perhaps generic arguments, and array brackets. It is resolved by its name
alone; arguments and brackets are put back behind the full name. When the type is looked up in the
graph, the full name is erased: it is cut at its first angle bracket.

Where the type has arguments, the cut is made before them, and the array brackets behind them are
lost as well. Where it has none, the array brackets are kept. So arguments do not matter as long as
there is no array. But an array of a generic type is looked up by the name of its elements, and the
same array without the arguments by the name of an array, which no declared type has.

## Main results

* `Java.WrittenType.split_written`: a written type is taken apart into what it is made of.
* `Java.WrittenType.IsArguments.erasure_append`, `Java.WrittenType.erasure_append_brackets`: what is
  erased behind a name.
* `Project.Index.erasureOf?_arguments_iff`: when generic arguments do not matter.
-/

namespace Variability

namespace Java.WrittenType

/-! ### Generic arguments -/

/-- A text in which every angle bracket has its partner. -/
inductive Balanced : List Char → Prop
  | nil : Balanced []
  | plain {c : Char} {cs : List Char} (hopen : c ≠ '<') (hclose : c ≠ '>') (hcs : Balanced cs) :
      Balanced (c :: cs)
  | group {inner rest : List Char} (hinner : Balanced inner) (hrest : Balanced rest) :
      Balanced ('<' :: (inner ++ '>' :: rest))

/-- Generic arguments: the bracket that opens them is closed by their last character. -/
def IsArguments (args : String) : Prop :=
  ∃ inner, Balanced inner ∧ args.toList = '<' :: (inner ++ ['>'])

theorem takeArguments_plain {c : Char} (hopen : c ≠ '<') (hclose : c ≠ '>') (depth : Nat)
    (cs : List Char) : takeArguments depth (c :: cs) =
      (c :: (takeArguments depth cs).1, (takeArguments depth cs).2) := by
  simp [takeArguments, hopen, hclose]

theorem takeArguments_open (depth : Nat) (cs : List Char) : takeArguments depth ('<' :: cs) =
    ('<' :: (takeArguments (depth + 1) cs).1, (takeArguments (depth + 1) cs).2) := by
  simp [takeArguments]

theorem takeArguments_close (depth : Nat) (cs : List Char) :
    takeArguments (depth + 2) ('>' :: cs) =
      ('>' :: (takeArguments (depth + 1) cs).1, (takeArguments (depth + 1) cs).2) := by
  simp [takeArguments]

/-- Inside open brackets, a balanced text is taken whole. -/
theorem takeArguments_append {inner : List Char} (h : Balanced inner) (depth : Nat)
    (rest : List Char) :
    takeArguments (depth + 1) (inner ++ rest) =
      (inner ++ (takeArguments (depth + 1) rest).1, (takeArguments (depth + 1) rest).2) := by
  induction h generalizing depth rest with
  | nil => rfl
  | plain hopen hclose _ ih =>
      rw [List.cons_append, takeArguments_plain hopen hclose, ih]
      rfl
  | group _ _ ihinner ihrest =>
      rw [List.cons_append, List.append_assoc, List.cons_append, takeArguments_open, ihinner,
        takeArguments_close, ihrest]
      simp

/-- Arguments end where their first bracket is closed. -/
theorem splitArguments_append {args : String} (h : IsArguments args) (rest : List Char) :
    splitArguments (args.toList ++ rest) = (args.toList, rest) := by
  obtain ⟨inner, hinner, hargs⟩ := h
  have hclose : takeArguments 1 ('>' :: rest) = (['>'], rest) := rfl
  rw [hargs, List.cons_append, List.append_assoc, List.singleton_append, splitArguments,
    takeArguments_append hinner 0, hclose]

/-! ### Array brackets -/

theorem toList_brackets_succ (k : Nat) :
    (brackets (k + 1)).toList = '[' :: ']' :: (brackets k).toList := by
  simp [brackets, Text.replicate, List.replicate_succ, String.join_cons]

theorem count_brackets (k : Nat) : (brackets k).toList.count '[' = k := by
  induction k with
  | zero => rfl
  | succ k ih => simp [toList_brackets_succ, ih]

/-- Array brackets hold no arguments. -/
theorem splitArguments_brackets (k : Nat) :
    splitArguments (brackets k).toList = ([], (brackets k).toList) := by
  cases k with
  | zero => rfl
  | succ k =>
      rw [toList_brackets_succ]
      rfl

/-! ### Ends of a written type -/

/-- No blank stands at either end, and no dot at the end. Nothing is trimmed from such a text. -/
structure IsTight (cs : List Char) : Prop where
  head : ∀ c ∈ cs.head?, Text.isBlank c = false
  last : ∀ c ∈ cs.getLast?, Text.isBlank c = false ∧ c ≠ '.'

theorem IsTight.append {cs ds : List Char} (hcs : IsTight cs) (hds : IsTight ds) :
    IsTight (cs ++ ds) where
  head c hc := by
    rw [List.head?_append, Option.mem_def, Option.or_eq_some_iff] at hc
    rcases hc with hc | ⟨-, hc⟩
    · exact hcs.head c hc
    · exact hds.head c hc
  last c hc := by
    rw [List.getLast?_append, Option.mem_def, Option.or_eq_some_iff] at hc
    rcases hc with hc | ⟨-, hc⟩
    · exact hds.last c hc
    · exact hcs.last c hc

theorem IsArguments.isTight {args : String} (h : IsArguments args) : IsTight args.toList := by
  obtain ⟨inner, -, hargs⟩ := h
  have hlast : ('<' :: (inner ++ ['>'])).getLast? = some '>' := by
    rw [← List.cons_append, List.getLast?_concat]
  rw [hargs]
  constructor
  · rintro c ⟨⟩
    decide
  · rw [hlast]
    rintro c ⟨⟩
    decide

theorem isTight_brackets (k : Nat) : IsTight (brackets k).toList := by
  have hpair : IsTight ['[', ']'] := by
    constructor
    · rintro c ⟨⟩
      rfl
    · rintro c ⟨⟩
      decide
  induction k with
  | zero => exact ⟨by simp [brackets, Text.replicate], by simp [brackets, Text.replicate]⟩
  | succ k ih =>
      rw [toList_brackets_succ]
      exact hpair.append ih

theorem dropWhile_of_head? {p : Char → Bool} {cs : List Char} (h : ∀ c ∈ cs.head?, p c = false) :
    cs.dropWhile p = cs := by
  cases cs with
  | nil => rfl
  | cons c cs => rw [List.dropWhile_cons_of_neg (by simp [h c rfl])]

theorem takeWhile_of_head? {p : Char → Bool} {cs : List Char} (h : ∀ c ∈ cs.head?, p c = false) :
    cs.takeWhile p = [] := by
  cases cs with
  | nil => rfl
  | cons c cs => rw [List.takeWhile_cons_of_neg (by simp [h c rfl])]

/-- Nothing is trimmed from a text without blanks at its ends. -/
theorem trimChars_of_ends {cs : List Char} (hhead : ∀ c ∈ cs.head?, Text.isBlank c = false)
    (hlast : ∀ c ∈ cs.getLast?, Text.isBlank c = false) : Text.trimChars cs = cs := by
  rw [← List.head?_reverse] at hlast
  rw [Text.trimChars, dropWhile_of_head? hhead, dropWhile_of_head? hlast, List.reverse_reverse]

theorem IsTight.trimChars_eq {cs : List Char} (h : IsTight cs) : Text.trimChars cs = cs :=
  trimChars_of_ends h.head fun c hc => (h.last c hc).1

theorem IsTight.dropDots_eq {cs : List Char} (h : IsTight cs) : dropDots cs = (cs, false) := by
  unfold dropDots
  split
  · rename_i rest hrest
    have hdot : '.' ∈ cs.getLast? := by
      rw [← List.head?_reverse, hrest]
      rfl
    exact absurd rfl (h.last '.' hdot).2
  · rfl

/-! ### Taking a written type apart -/

/-- A name that can stand before generic arguments and array brackets. -/
structure IsBase (base : String) : Prop where
  angle : '<' ∉ base.toList
  square : '[' ∉ base.toList
  blank : ∀ c ∈ base.toList, Text.isBlank c = false
  dot : base.toList.getLast? ≠ some '.'

instance (base : String) : Decidable (IsBase base) :=
  decidable_of_iff ('<' ∉ base.toList ∧ '[' ∉ base.toList ∧
      base.toList.all (!Text.isBlank ·) = true ∧ base.toList.getLast? ≠ some '.')
    ⟨fun ⟨ha, hs, hb, hd⟩ => ⟨ha, hs, by simpa using hb, hd⟩,
      fun h => ⟨h.angle, h.square, by simpa using h.blank, h.dot⟩⟩

theorem IsBase.isTight {base : String} (h : IsBase base) : IsTight base.toList where
  head c hc := h.blank c (List.mem_of_head? hc)
  last c hc := ⟨h.blank c (List.mem_of_getLast? hc), fun heq => h.dot (heq ▸ hc)⟩

theorem IsBase.not_endsBase {base : String} (h : IsBase base) :
    ∀ c ∈ base.toList, (!endsBase c) = true := by
  intro c hc
  have hangle : c ≠ '<' := fun heq => h.angle (heq ▸ hc)
  have hsquare : c ≠ '[' := fun heq => h.square (heq ▸ hc)
  simp [endsBase, hangle, hsquare]

/-- What follows the name of a written type: generic arguments, if there are any, and array
brackets. -/
theorem splitArguments_written {args : String} (hargs : args = "" ∨ IsArguments args) (k : Nat) :
    splitArguments (args.toList ++ (brackets k).toList) = (args.toList, (brackets k).toList) := by
  rcases hargs with rfl | hargs
  · exact splitArguments_brackets k
  · exact splitArguments_append hargs _

/-- The name of a written type ends where its arguments or array brackets begin. -/
theorem endsBase_of_head? {args : String} (hargs : args = "" ∨ IsArguments args) (k : Nat) :
    ∀ c ∈ (args.toList ++ (brackets k).toList).head?, (!endsBase c) = false := by
  rcases hargs with rfl | ⟨inner, -, hargs⟩
  · cases k with
    | zero => exact fun c hc => by simp [brackets, Text.replicate] at hc
    | succ k =>
        rw [toList_brackets_succ]
        rintro c ⟨⟩
        rfl
  · rw [hargs]
    rintro c ⟨⟩
    rfl

theorem isTight_written {base args : String} (hbase : IsBase base)
    (hargs : args = "" ∨ IsArguments args) (k : Nat) :
    IsTight (base.toList ++ (args.toList ++ (brackets k).toList)) := by
  have htightArgs : IsTight args.toList := by
    rcases hargs with rfl | hargs
    · exact ⟨by simp, by simp⟩
    · exact hargs.isTight
  exact hbase.isTight.append (htightArgs.append (isTight_brackets k))

/-- **A written type is taken apart** into its name, its generic arguments, if it has any, and the
number of its dimensions. -/
theorem split_written {base args : String} (hbase : IsBase base)
    (hargs : args = "" ∨ IsArguments args) (k : Nat) :
    split (base ++ args ++ brackets k) = { base, arguments := args, dimensions := k } := by
  have htight := isTight_written hbase hargs k
  have hends := endsBase_of_head? hargs k
  have hchars : splitChars (base.toList ++ (args.toList ++ (brackets k).toList)) =
      (base.toList, args.toList, k) := by
    simp only [splitChars, htight.trimChars_eq, htight.dropDots_eq,
      List.takeWhile_append_of_pos hbase.not_endsBase,
      List.dropWhile_append_of_pos hbase.not_endsBase, takeWhile_of_head? hends,
      dropWhile_of_head? hends, splitArguments_written hargs, count_brackets]
    simp
  rw [split, String.toList_append, String.toList_append, List.append_assoc, hchars]
  simp

end Java.WrittenType

/-! ### Erasing a written type -/

namespace Name

/-- Erasure goes on behind a plain name. -/
theorem IsPlain.erasure_append {name : String} (h : IsPlain name) (rest : String) :
    erasure (name ++ rest) = name ++ erasure rest := by
  have hkept : ∀ c ∈ name.toList, (c != '<') = true := fun c hc =>
    bne_iff_ne.mpr fun heq => h (heq ▸ hc)
  rw [erasure, String.toList_append, List.takeWhile_append_of_pos hkept, String.ofList_append,
    String.ofList_toList, erasure]

/-- Erasure ends inside a name with an angle bracket. -/
theorem erasure_append_of_not_isPlain {name : String} (h : ¬ IsPlain name) (rest : String) :
    erasure (name ++ rest) = erasure name := by
  have hcut : (name.toList.takeWhile (· != '<')).length ≠ name.toList.length := by
    intro hlength
    have hself := (List.takeWhile_prefix (· != '<')).eq_of_length hlength
    exact h fun hmem => by simpa using List.takeWhile_eq_self_iff.mp hself '<' hmem
  rw [erasure, String.toList_append, List.takeWhile_append, if_neg hcut, erasure]

end Name

namespace Java.WrittenType

/-- A name with generic arguments is erased to the name, whatever follows the arguments. -/
theorem IsArguments.erasure_append {args : String} (h : IsArguments args) (name rest : String) :
    Name.erasure (name ++ (args ++ rest)) = Name.erasure name := by
  by_cases hname : Name.IsPlain name
  · have hargs : Name.erasure (args ++ rest) = "" := by
      obtain ⟨inner, -, hargs⟩ := h
      rw [Name.erasure, String.toList_append, hargs]
      rfl
    rw [hname.erasure_append, hname.erasure_eq, hargs, String.append_empty]
  · exact Name.erasure_append_of_not_isPlain hname _

theorem isPlain_brackets (k : Nat) : Name.IsPlain (brackets k) := by
  induction k with
  | zero => decide
  | succ k ih => simpa [Name.IsPlain, toList_brackets_succ] using ih

/-- Array brackets are kept behind a plain name. -/
theorem erasure_append_brackets {name : String} (h : Name.IsPlain name) (k : Nat) :
    Name.erasure (name ++ brackets k) = name ++ brackets k := by
  rw [h.erasure_append, (isPlain_brackets k).erasure_eq]

/-- Array brackets are kept unless there are none or the name has an angle bracket. -/
theorem erasure_append_brackets_eq_iff (name : String) (k : Nat) :
    Name.erasure (name ++ brackets k) = Name.erasure name ↔ k = 0 ∨ ¬ Name.IsPlain name := by
  by_cases hname : Name.IsPlain name
  · have hnone : brackets k = "" ↔ k = 0 := by
      cases k with
      | zero => exact iff_of_true rfl rfl
      | succ k => simp [← String.toList_inj, toList_brackets_succ]
    rw [erasure_append_brackets hname, hname.erasure_eq, String.append_eq_left_iff, hnone]
    simp [hname]
  · simp [Name.erasure_append_of_not_isPlain hname, hname]

end Java.WrittenType

namespace Project

open Java.WrittenType (Balanced IsBase IsArguments brackets erasure_append_brackets
  erasure_append_brackets_eq_iff)

namespace Index

variable (ix : Index) (s : Scope) {base args : String}

/-- The full name that the name of a written type stands for. -/
def fullName (base : String) : String := (ix.resolveBase? s base).getD base

/-- The name by which the type that a written type stands for is looked up in the graph. -/
def erasureOf? (text : String) : Option String := (ix.resolveType? s text).map (·.erasure)

/-- What is looked up for a written type. -/
theorem erasureOf?_written (hbase : IsBase base) (hprimitive : base ∉ primitives)
    (hargs : args = "" ∨ IsArguments args) (k : Nat) :
    ix.erasureOf? s (base ++ args ++ brackets k) = if base = "" then none
      else some (Name.erasure (ix.fullName s base ++ (args ++ brackets k))) := by
  simp only [erasureOf?, resolveType?, Java.WrittenType.split_written hbase hargs]
  by_cases hempty : base = ""
  · simp [hempty]
  · simp [hempty, hprimitive, TypeRef.erasure, fullName, String.append_assoc]

/-- What is looked up for a written type without generic arguments. -/
theorem erasureOf?_array (hbase : IsBase base) (hprimitive : base ∉ primitives) (k : Nat) :
    ix.erasureOf? s (base ++ brackets k) = if base = "" then none
      else some (Name.erasure (ix.fullName s base ++ brackets k)) := by
  have h := ix.erasureOf?_written s hbase hprimitive (.inl rfl) k
  rwa [String.append_empty, String.empty_append] at h

/-- What is looked up for a name alone. -/
theorem erasureOf?_name (hbase : IsBase base) (hprimitive : base ∉ primitives) :
    ix.erasureOf? s base = if base = "" then none
      else some (Name.erasure (ix.fullName s base)) := by
  have h := ix.erasureOf?_array s hbase hprimitive 0
  rwa [show brackets 0 = "" from rfl, String.append_empty, String.append_empty] at h

/-- **When generic arguments do not matter.** A reference with arguments is looked up by its name
alone, also where it is an array. An array without arguments is looked up with its brackets. So the
arguments do not matter exactly where the reference is no array, or where the full name is cut at an
angle bracket of its own; and where there is no name, nothing is looked up. -/
theorem erasureOf?_arguments_iff (hbase : IsBase base) (hprimitive : base ∉ primitives)
    (hargs : IsArguments args) (k : Nat) :
    ix.erasureOf? s (base ++ args ++ brackets k) = ix.erasureOf? s base ∧
      (Name.IsPlain (ix.fullName s base) →
        ix.erasureOf? s (base ++ brackets k) = (ix.erasureOf? s base).map (· ++ brackets k)) ∧
      (ix.erasureOf? s (base ++ args ++ brackets k) = ix.erasureOf? s (base ++ brackets k) ↔
        base = "" ∨ k = 0 ∨ ¬ Name.IsPlain (ix.fullName s base)) := by
  rw [erasureOf?_written ix s hbase hprimitive (.inr hargs), erasureOf?_array ix s hbase hprimitive,
    erasureOf?_name ix s hbase hprimitive, hargs.erasure_append]
  by_cases hempty : base = ""
  · simp [hempty]
  · rw [if_neg hempty, if_neg hempty, ← erasure_append_brackets_eq_iff]
    refine ⟨rfl, fun hplain => ?_, ?_⟩
    · rw [erasure_append_brackets hplain, Option.map_some, hplain.erasure_eq]
    · simp [hempty, eq_comm]

/-- A class that is declared in a package. -/
def boxIndex : Index where
  files := [{ package := some "shapes" }]
  types := [{ qualified := "shapes.Box", simple := "Box" }]

theorem erasureOf?_arguments_iff_box :
    IsBase "Box" ∧ "Box" ∉ primitives ∧ IsArguments "<Map<K,V[]>>" ∧
      Name.IsPlain (boxIndex.fullName {} "Box") ∧
      boxIndex.erasureOf? {} ("Box" ++ "<Map<K,V[]>>" ++ brackets 1) = some "shapes.Box" ∧
      boxIndex.erasureOf? {} ("Box" ++ brackets 1) = some "shapes.Box[]" := by
  have hbase : IsBase "Box" := by decide
  have hprimitive : "Box" ∉ primitives := by decide
  have hinner : Balanced ['K', ',', 'V', '[', ']'] := by
    repeat refine .plain (by decide) (by decide) ?_
    exact .nil
  have hargs : IsArguments "<Map<K,V[]>>" := by
    refine ⟨['M', 'a', 'p', '<', 'K', ',', 'V', '[', ']', '>'], ?_, rfl⟩
    repeat refine .plain (by decide) (by decide) ?_
    exact .group hinner .nil
  have hplain : Name.IsPlain (boxIndex.fullName {} "Box") := by decide +kernel
  have hname : boxIndex.erasureOf? {} "Box" = some "shapes.Box" := by decide +kernel
  obtain ⟨hgeneric, harray, -⟩ := boxIndex.erasureOf?_arguments_iff {} hbase hprimitive hargs 1
  rw [hname] at hgeneric harray
  exact ⟨hbase, hprimitive, hargs, hplain, hgeneric, harray hplain⟩

/-- Generic arguments matter for arrays. -/
theorem not_forall_erasureOf?_eq :
    ¬ ∀ (ix : Index) (s : Scope) (base args : String), IsBase base → base ∉ primitives →
      IsArguments args → ∀ k, ix.erasureOf? s (base ++ args ++ brackets k) =
        ix.erasureOf? s (base ++ brackets k) := by
  intro h
  have hargs : IsArguments "<T>" := ⟨['T'], .plain (by decide) (by decide) .nil, rfl⟩
  exact absurd (h boxIndex {} "Box" "<T>" (by decide) (by decide) hargs 1) (by decide +kernel)

end Index

end Project

end Variability
