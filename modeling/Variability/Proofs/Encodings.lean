import Mathlib.Data.Char
import Mathlib.Data.List.Basic
import Variability.Text.Encoding

/-!
# Encoding and decoding

A file does not say in which encoding it is written. The decoders are tried one after the other, and
the first that accepts the file decides. This module states the encodings as well, from texts to
files, and compares both directions.

A decoder accepts exactly the files that its encoding writes, except that one byte may follow a text
in UTF-16. It remains to see that no decoder takes away a file of another encoding. A file in UTF-16
begins with a byte that no file in UTF-8 begins with, and the two byte orders have different marks.
The mark of UTF-8 is itself a character in UTF-8, so a text that begins with this character loses
it.

So decoding undoes every encoding. In the other direction, what is read determines the file up to
the encoding, unless the file is a text in UTF-16 with a byte after it. Then the byte is lost.

## Main results

* `Cuts.ofUnits_pairUp_eq_some_iff`: reading UTF-16 units, surrogate pairs included.
* `Encoding.decode?_eq_some_iff`: which files a decoder accepts.
* `Encoding.decode?_eq_none_of_ne`: a file with a UTF-16 mark is read in no other encoding.
* `decode_encode`: decoding undoes each encoding.
* `decode_lossless_iff`: which files can be told from what is read.
-/

namespace Variability.Text

/-! ### UTF-16 units -/

/-- The UTF-16 units of a character: one, or a pair of surrogates. -/
def unitsOf (c : Char) : List Nat :=
  if c.toNat < 0x10000 then [c.toNat]
  else [0xD800 + (c.toNat - 0x10000) / 0x400, 0xDC00 + (c.toNat - 0x10000) % 0x400]

/-- The UTF-16 units of a text. -/
def units (cs : List Char) : List Nat := cs.flatMap unitsOf

theorem isValidChar_toNat (c : Char) : c.toNat.isValidChar := c.valid

theorem toNat_ofNat {n : Nat} (h : n.isValidChar) : (Char.ofNat n).toNat = n := by
  rw [Char.ofNat, dif_pos h]
  rfl

/-- The units of a character are read as the character, whatever follows. -/
theorem ofUnits_unitsOf_append (c : Char) (rest : List Nat) :
    ofUnits (unitsOf c ++ rest) = (ofUnits rest).map (c :: ·) := by
  have hvalid := isValidChar_toNat c
  rw [Nat.isValidChar] at hvalid
  unfold unitsOf
  split
  case isTrue hc =>
    rw [List.singleton_append, ofUnits.eq_def]
    dsimp only
    rw [if_pos (by omega), Char.ofNat_toNat]
  case isFalse hc =>
    have hpair : 0x10000 + (0xD800 + (c.toNat - 0x10000) / 0x400 - 0xD800) * 0x400 +
        (0xDC00 + (c.toNat - 0x10000) % 0x400 - 0xDC00) = c.toNat := by omega
    rw [List.cons_append, List.singleton_append, ofUnits.eq_def]
    dsimp only
    rw [if_neg (by omega), if_pos (by omega), hpair, Char.ofNat_toNat]

/-- The units of a text are read as the text. -/
theorem ofUnits_units (cs : List Char) : ofUnits (units cs) = some cs := by
  induction cs with
  | nil => rfl
  | cons c cs ih =>
      rw [units, List.flatMap_cons, ofUnits_unitsOf_append, ← units, ih, Option.map_some]

/-- Units that are read as a text are those of the text. -/
theorem eq_units_of_ofUnits {us : List Nat} {cs : List Char} (hus : ∀ u ∈ us, u < 0x10000)
    (h : ofUnits us = some cs) : us = units cs := by
  fun_induction ofUnits us generalizing cs with
  | case1 =>
      cases h
      rfl
  | case2 u rest hu ih =>
      obtain ⟨ds, hds, rfl⟩ := Option.map_eq_some_iff.mp h
      have hlt := hus u List.mem_cons_self
      have hvalid : u.isValidChar := by
        rw [Nat.isValidChar]
        omega
      have hrest := ih (fun v hv => hus v (List.mem_cons_of_mem _ hv)) hds
      rw [units, List.flatMap_cons, unitsOf, toNat_ofNat hvalid, if_pos hlt, hrest]
      rfl
  | case3 u hu v rest hpair ih =>
      obtain ⟨ds, hds, rfl⟩ := Option.map_eq_some_iff.mp h
      have hrest := ih (fun w hw => hus w (by simp [hw])) hds
      generalize hn : 0x10000 + (u - 0xD800) * 0x400 + (v - 0xDC00) = n
      have hvalid : n.isValidChar := by
        rw [Nat.isValidChar]
        omega
      have hhigh : 0xD800 + (n - 0x10000) / 0x400 = u := by omega
      have hlow : 0xDC00 + (n - 0x10000) % 0x400 = v := by omega
      rw [units, List.flatMap_cons, unitsOf, toNat_ofNat hvalid, if_neg (by omega), hhigh, hlow,
        hrest]
      rfl
  | case4 => cases h
  | case5 => cases h

/-- Every unit has two bytes. -/
theorem lt_of_mem_units {cs : List Char} {u : Nat} (hu : u ∈ units cs) : u < 0x10000 := by
  obtain ⟨c, -, hc⟩ := List.mem_flatMap.mp hu
  have hvalid := isValidChar_toNat c
  rw [Nat.isValidChar] at hvalid
  unfold unitsOf at hc
  split at hc
  · have hone := List.mem_singleton.mp hc
    omega
  · rcases List.mem_pair.mp hc with hhigh | hlow
    · omega
    · omega

/-- A text has at least as many units as characters. -/
theorem length_le_length_units (cs : List Char) : cs.length ≤ (units cs).length := by
  induction cs with
  | nil => exact Nat.zero_le _
  | cons c cs ih =>
      have hone : 1 ≤ (unitsOf c).length := by
        unfold unitsOf
        split
        · exact Nat.le_refl 1
        · exact Nat.le_succ 1
      rw [units, List.flatMap_cons, List.length_append, List.length_cons, ← units]
      omega

/-! ### Bytes of units -/

/-- The function `cut` takes a unit apart into the two bytes from which `join` makes it. -/
structure Cuts (cut : Nat → UInt8 × UInt8) (join : UInt8 → UInt8 → Nat) : Prop where
  join_lt : ∀ a b, join a b < 0x10000
  cut_join : ∀ a b, cut (join a b) = (a, b)
  join_cut : ∀ u < 0x10000, join (cut u).1 (cut u).2 = u

/-- A unit as its low and its high byte. -/
def cutLittle (u : Nat) : UInt8 × UInt8 := (UInt8.ofNat u, UInt8.ofNat (u / 0x100))

/-- A unit as its high and its low byte. -/
def cutBig (u : Nat) : UInt8 × UInt8 := (cutLittle u).swap

theorem cuts_little : Cuts cutLittle fun a b => b.toNat * 0x100 + a.toNat where
  join_lt a b := by
    have ha := a.toNat_lt
    have hb := b.toNat_lt
    omega
  cut_join a b := by
    have ha := a.toNat_lt
    have hb := b.toNat_lt
    have hlow : UInt8.ofNat (b.toNat * 0x100 + a.toNat) = a :=
      (UInt8.ofNat_eq_iff_mod_eq_toNat _ _).mpr (by omega)
    have hhigh : UInt8.ofNat ((b.toNat * 0x100 + a.toNat) / 0x100) = b :=
      (UInt8.ofNat_eq_iff_mod_eq_toNat _ _).mpr (by omega)
    rw [cutLittle, hlow, hhigh]
  join_cut u hu := by
    simp only [cutLittle, UInt8.toNat_ofNat']
    omega

theorem cuts_big : Cuts cutBig fun a b => a.toNat * 0x100 + b.toNat where
  join_lt a b := cuts_little.join_lt b a
  cut_join a b := congrArg Prod.swap (cuts_little.cut_join b a)
  join_cut u hu := cuts_little.join_cut u hu

/-- The bytes of units. -/
def bytesOf (cut : Nat → UInt8 × UInt8) (us : List Nat) : List UInt8 :=
  us.flatMap fun u => [(cut u).1, (cut u).2]

theorem length_bytesOf (cut : Nat → UInt8 × UInt8) (us : List Nat) :
    (bytesOf cut us).length = 2 * us.length := by
  induction us with
  | nil => rfl
  | cons u us ih =>
      rw [bytesOf, List.flatMap_cons, List.length_append, ← bytesOf, ih, List.length_cons]
      simp only [List.length_cons, List.length_nil]
      omega

section Pairs

variable {cut : Nat → UInt8 × UInt8} {join : UInt8 → UInt8 → Nat} (h : Cuts cut join)

include h

theorem Cuts.lt_of_mem_pairUp {bytes : List UInt8} {u : Nat} (hu : u ∈ pairUp join bytes) :
    u < 0x10000 := by
  fun_induction pairUp join bytes with
  | case1 a b rest ih =>
      rcases List.mem_cons.mp hu with rfl | hu
      · exact h.join_lt a b
      · exact ih hu
  | case2 => cases hu

/-- The bytes of units are paired up to the units. A byte left over is dropped. -/
theorem Cuts.pairUp_bytesOf_append {us : List Nat} (hus : ∀ u ∈ us, u < 0x10000)
    {stray : List UInt8} (hstray : stray.length ≤ 1) :
    pairUp join (bytesOf cut us ++ stray) = us := by
  induction us with
  | nil =>
      match stray, hstray with
      | [], _ => rfl
      | [_], _ => rfl
  | cons u us ih =>
      have hrest := ih fun v hv => hus v (List.mem_cons_of_mem _ hv)
      exact congrArg₂ List.cons (h.join_cut u (hus u List.mem_cons_self)) hrest

/-- All bytes but at most one are those of the units they are paired up to. -/
theorem Cuts.exists_stray (bytes : List UInt8) :
    ∃ stray, stray.length ≤ 1 ∧ bytes = bytesOf cut (pairUp join bytes) ++ stray := by
  fun_induction pairUp join bytes with
  | case1 a b rest ih =>
      obtain ⟨stray, hstray, hrest⟩ := ih
      refine ⟨stray, hstray, ?_⟩
      rw [bytesOf, List.flatMap_cons, h.cut_join, List.append_assoc, ← bytesOf, ← hrest]
      rfl
  | case2 bytes hshort =>
      refine ⟨bytes, ?_, rfl⟩
      match bytes, hshort with
      | [], _ => exact Nat.zero_le _
      | [_], _ => exact Nat.le_refl _
      | a :: b :: rest, hshort => exact absurd rfl (hshort a b rest)

/-- **Bytes are read as the text whose units they are.** One more byte may follow. -/
theorem Cuts.ofUnits_pairUp_eq_some_iff {bytes : List UInt8} {cs : List Char} :
    ofUnits (pairUp join bytes) = some cs ↔
      ∃ stray, stray.length ≤ 1 ∧ bytes = bytesOf cut (units cs) ++ stray := by
  constructor
  · intro hread
    have hunits := eq_units_of_ofUnits (fun u => h.lt_of_mem_pairUp) hread
    exact hunits ▸ h.exists_stray bytes
  · rintro ⟨stray, hstray, rfl⟩
    rw [h.pairUp_bytesOf_append (fun u => lt_of_mem_units) hstray, ofUnits_units]

end Pairs

/-! ### Encodings -/

/-- Bytes are read as UTF-8 exactly if they are those of the text. -/
theorem ofUtf8?_eq_some_iff {bytes : List UInt8} {s : String} :
    ofUtf8? bytes = some s ↔ bytes = s.toUTF8.data.toList := by
  have hbytes : bytes = s.toUTF8.data.toList ↔ (⟨bytes.toArray⟩ : ByteArray) = s.toByteArray := by
    rw [ByteArray.ext_iff, ← Array.toList_inj]
    rfl
  rw [hbytes, ofUtf8?, String.fromUTF8?]
  constructor
  · intro h
    split at h
    · cases h
      rfl
    · cases h
  · intro h
    rw [dif_pos (h ▸ s.isValidUTF8), Option.some.injEq, ← String.toByteArray_inj]
    exact h

namespace Encoding

/-- A text in an encoding, without the byte order mark. -/
def encodeBody : Encoding → String → List UInt8
  | markedUtf8, s => s.toUTF8.data.toList
  | utf8, s => s.toUTF8.data.toList
  | utf16Little, s => bytesOf cutLittle (units s.toList)
  | utf16Big, s => bytesOf cutBig (units s.toList)

/-- The file that holds a text in an encoding. -/
def encode (e : Encoding) (s : String) : List UInt8 := e.mark ++ e.encodeBody s

theorem mark_prefix_encode (e : Encoding) (s : String) : e.mark <+: e.encode s :=
  List.prefix_append _ _

/-- How many bytes may follow a text in an encoding without being noticed. -/
def slack : Encoding → Nat
  | markedUtf8 => 0
  | utf8 => 0
  | utf16Little => 1
  | utf16Big => 1

/-- The encodings in which a byte is not noticed are those in UTF-16. -/
theorem slack_eq_one_iff {e : Encoding} : e.slack = 1 ↔ e = utf16Little ∨ e = utf16Big := by
  cases e <;> decide

theorem decodeBody?_eq_some_iff {e : Encoding} {bytes : List UInt8} {s : String} :
    e.decodeBody? bytes = some s ↔
      ∃ stray, stray.length ≤ e.slack ∧ bytes = e.encodeBody s ++ stray := by
  have hutf8 : ofUtf8? bytes = some s ↔
      ∃ stray : List UInt8, stray.length ≤ 0 ∧ bytes = s.toUTF8.data.toList ++ stray := by
    simp [ofUtf8?_eq_some_iff]
  have hutf16 : ∀ {cut join}, Cuts cut join →
      ((ofUnits (pairUp join bytes)).map String.ofList = some s ↔
        ∃ stray, stray.length ≤ 1 ∧ bytes = bytesOf cut (units s.toList) ++ stray) := by
    intro cut join h
    rw [← h.ofUnits_pairUp_eq_some_iff, Option.map_eq_some_iff]
    constructor
    · rintro ⟨cs, hcs, rfl⟩
      rw [hcs, String.toList_ofList]
    · exact fun hcs => ⟨_, hcs, String.ofList_toList⟩
  cases e with
  | markedUtf8 => exact hutf8
  | utf8 => exact hutf8
  | utf16Little => exact hutf16 cuts_little
  | utf16Big => exact hutf16 cuts_big

/-- **A decoder accepts exactly the files of its encoding.** A byte may follow those in UTF-16. -/
theorem decode?_eq_some_iff {e : Encoding} {bytes : List UInt8} {s : String} :
    e.decode? bytes = some s ↔ ∃ stray, stray.length ≤ e.slack ∧ bytes = e.encode s ++ stray := by
  unfold decode? encode
  constructor
  · intro h
    split at h
    case isTrue hmark =>
      obtain ⟨body, rfl⟩ := List.isPrefixOf_iff_prefix.mp hmark
      rw [List.drop_left] at h
      obtain ⟨stray, hstray, rfl⟩ := decodeBody?_eq_some_iff.mp h
      exact ⟨stray, hstray, (List.append_assoc _ _ _).symm⟩
    case isFalse => cases h
  · rintro ⟨stray, hstray, rfl⟩
    rw [List.append_assoc, if_pos (List.isPrefixOf_iff_prefix.mpr (List.prefix_append _ _)),
      List.drop_left]
    exact decodeBody?_eq_some_iff.mpr ⟨stray, hstray, rfl⟩

/-- A decoder that notices every byte refuses exactly what its encoding does not write. -/
theorem decode?_eq_none_iff {e : Encoding} (he : e.slack = 0) {bytes : List UInt8} :
    e.decode? bytes = none ↔ ∀ s, e.encode s ≠ bytes := by
  have hsome : ∀ s, e.decode? bytes = some s ↔ e.encode s = bytes := by
    intro s
    rw [decode?_eq_some_iff, he]
    simp [eq_comm]
  simp only [Option.eq_none_iff_forall_ne_some, ne_eq, hsome]

/-- The decoder of an encoding undoes it. -/
theorem decode?_encode (e : Encoding) (s : String) : e.decode? (e.encode s) = some s :=
  decode?_eq_some_iff.mpr ⟨[], Nat.zero_le _, (List.append_nil _).symm⟩

/-- The byte order mark of UTF-8 is a character in UTF-8. -/
theorem encode_markedUtf8 (s : String) : markedUtf8.encode s = utf8.encode ("\uFEFF" ++ s) := by
  have hmark : ("\uFEFF" : String).toByteArray.data.toList = markedUtf8.mark := by decide
  simp only [encode, encodeBody, String.toUTF8_eq_toByteArray, String.toByteArray_append,
    ByteArray.data_append, Array.toList_append, hmark]
  rfl

/-- A text is determined by its UTF-8 bytes. -/
theorem encode_utf8_injective : Function.Injective utf8.encode := by
  intro s t h
  have hs := decode?_encode utf8 s
  rw [h, decode?_encode] at hs
  exact (Option.some.inj hs).symm

/-- No UTF-8 file begins with a byte of a UTF-16 mark. -/
theorem not_prefix_encode_utf8 {e : Encoding} (he : e.slack = 1) (s : String) :
    ¬ e.mark <+: utf8.encode s := by
  rintro ⟨rest, hrest⟩
  have hfirst : ∀ {b : UInt8} {bs : List UInt8}, b :: bs = utf8.encode s → b.IsUTF8FirstByte := by
    intro b bs hs
    have hdata : s.toByteArray = ⟨(b :: bs).toArray⟩ := by
      rw [ByteArray.ext_iff, ← Array.toList_inj]
      exact hs.symm
    have hbyte := s.isValidUTF8.isUTF8FirstByte_getElem_zero (by rw [hdata]; exact Nat.succ_pos _)
    simp only [hdata] at hbyte
    exact hbyte
  rcases slack_eq_one_iff.mp he with rfl | rfl
  · exact absurd (hfirst hrest) (by decide)
  · exact absurd (hfirst hrest) (by decide)

/-- A file without its mark is refused. -/
theorem decode?_eq_none_of_not_prefix {e : Encoding} {bytes : List UInt8}
    (h : ¬ e.mark <+: bytes) : e.decode? bytes = none := by
  rw [decode?, if_neg (mt List.isPrefixOf_iff_prefix.mp h)]

/-- A file that begins with a UTF-16 mark is read in no other encoding. -/
theorem decode?_eq_none_of_ne {e e' : Encoding} (he : e.slack = 1) (hne : e' ≠ e)
    {bytes : List UInt8} (hmark : e.mark <+: bytes) : e'.decode? bytes = none := by
  by_cases hutf8 : e' = utf8
  · subst hutf8
    refine (decode?_eq_none_iff rfl).mpr fun s hs => not_prefix_encode_utf8 he s ?_
    rwa [hs]
  · -- Any other mark begins with another byte.
    obtain ⟨rest, rfl⟩ := hmark
    refine decode?_eq_none_of_not_prefix ?_
    rcases slack_eq_one_iff.mp he with rfl | rfl <;> cases e' <;> simp_all [mark]

theorem mem_all (e : Encoding) : e ∈ all := by cases e <;> decide

end Encoding

/-! ### Decoding -/

/-- The bytes are those of the text in ISO-8859-1: each is the number of its character. -/
def IsLatin1 (s : String) (bytes : List UInt8) : Prop :=
  s.toList.map Char.toNat = bytes.map UInt8.toNat

theorem isLatin1_ofLatin1 (bytes : List UInt8) : IsLatin1 (ofLatin1 bytes) bytes := by
  rw [IsLatin1, ofLatin1, String.toList_ofList, List.map_map]
  refine List.map_congr_left fun b _ => toNat_ofNat (.inl ?_)
  exact Nat.lt_trans b.toNat_lt (by decide)

/-- A file that no encoding accepts is read as ISO-8859-1. -/
theorem decode_of_eq_none {bytes : List UInt8} (h : ∀ e : Encoding, e.decode? bytes = none) :
    decode bytes = ofLatin1 bytes := by
  rw [decode, List.findSome?_eq_none_iff.mpr fun e _ => h e, Option.getD_none]

/-- A file is read in an encoding that accepts it, if there is one. -/
theorem decode_cases (bytes : List UInt8) :
    (∃ e : Encoding, e.decode? bytes = some (decode bytes)) ∨
      (∀ e : Encoding, e.decode? bytes = none) ∧ decode bytes = ofLatin1 bytes := by
  by_cases hnone : ∀ e : Encoding, e.decode? bytes = none
  · exact .inr ⟨hnone, decode_of_eq_none hnone⟩
  · refine .inl ?_
    cases hfind : Encoding.all.findSome? (·.decode? bytes) with
    | none => exact absurd (fun e => List.findSome?_eq_none_iff.mp hfind e e.mem_all) hnone
    | some s =>
        obtain ⟨e, -, he⟩ := List.exists_of_findSome?_eq_some hfind
        refine ⟨e, ?_⟩
        rw [he, decode, hfind, Option.getD_some]

/-- A file that only one encoding accepts is read in this encoding. -/
theorem decode_of_eq_some {bytes : List UInt8} {e : Encoding} {s : String}
    (h : e.decode? bytes = some s) (hothers : ∀ e' ≠ e, e'.decode? bytes = none) :
    decode bytes = s := by
  rcases decode_cases bytes with ⟨e', he'⟩ | ⟨hnone, -⟩
  · by_cases heq : e' = e
    · rw [heq, h] at he'
      exact (Option.some.inj he').symm
    · rw [hothers e' heq] at he'
      cases he'
  · rw [hnone e] at h
    cases h

/-- A text in UTF-16 is read back, and a byte after it is not noticed. -/
theorem decode_encode_append {e : Encoding} (he : e.slack = 1) (s : String) {stray : List UInt8}
    (hstray : stray.length ≤ 1) : decode (e.encode s ++ stray) = s := by
  have hmark := (e.mark_prefix_encode s).trans (List.prefix_append _ stray)
  exact decode_of_eq_some (Encoding.decode?_eq_some_iff.mpr ⟨stray, he ▸ hstray, rfl⟩)
    fun e' hne => Encoding.decode?_eq_none_of_ne he hne hmark

/-- A text in UTF-8 is read back after a mark. -/
theorem decode_encode_markedUtf8 (s : String) : decode (Encoding.markedUtf8.encode s) = s := by
  rw [decode, Encoding.all, List.findSome?_cons, Encoding.decode?_encode]
  rfl

/-- A text in UTF-8 is read back unless it begins with a mark of its own. -/
theorem decode_encode_utf8_iff (s : String) :
    decode (Encoding.utf8.encode s) = s ↔ s.toList.head? ≠ some '\uFEFF' := by
  constructor
  · intro h hhead
    obtain ⟨rest, hrest⟩ := List.head?_eq_some_iff.mp hhead
    obtain rfl : s = "\uFEFF" ++ String.ofList rest := by
      rw [← String.toList_inj, hrest]
      simp
    rw [← Encoding.encode_markedUtf8, decode_encode_markedUtf8] at h
    have hlength := congrArg String.length h
    simp at hlength
  · intro hhead
    refine decode_of_eq_some (Encoding.decode?_encode _ _) fun e hne => ?_
    by_cases he : e.slack = 1
    · exact Encoding.decode?_eq_none_of_not_prefix (Encoding.not_prefix_encode_utf8 he s)
    · obtain rfl : e = .markedUtf8 := by cases e <;> simp_all [Encoding.slack]
      refine (Encoding.decode?_eq_none_iff rfl).mpr fun t ht => ?_
      rw [Encoding.encode_markedUtf8] at ht
      obtain rfl := Encoding.encode_utf8_injective ht
      simp at hhead

/-- A file that is not UTF-8 and has no UTF-16 mark is read as ISO-8859-1. -/
theorem decode_of_not_utf8 {bytes : List UInt8} (hutf8 : ∀ s, Encoding.utf8.encode s ≠ bytes)
    (hmarks : ∀ e : Encoding, e.slack = 1 → ¬ e.mark <+: bytes) :
    decode bytes = ofLatin1 bytes := by
  refine decode_of_eq_none fun e => ?_
  cases e with
  | markedUtf8 =>
      refine (Encoding.decode?_eq_none_iff rfl).mpr fun s hs => ?_
      rw [Encoding.encode_markedUtf8] at hs
      exact hutf8 _ hs
  | utf8 => exact (Encoding.decode?_eq_none_iff rfl).mpr hutf8
  | utf16Little => exact Encoding.decode?_eq_none_of_not_prefix (hmarks _ rfl)
  | utf16Big => exact Encoding.decode?_eq_none_of_not_prefix (hmarks _ rfl)

/-- **Decoding undoes each encoding.** A text in UTF-8 is read back unless it begins with a byte
order mark. After a mark, a text in UTF-8 or in UTF-16 of either byte order is always read back. A
file that is not UTF-8 and has no UTF-16 mark is read byte by byte, each as the character with its
number. -/
theorem decode_encode (s : String) :
    (decode (Encoding.utf8.encode s) = s ↔ s.toList.head? ≠ some '\uFEFF') ∧
      decode (Encoding.markedUtf8.encode s) = s ∧
      decode (Encoding.utf16Little.encode s) = s ∧
      decode (Encoding.utf16Big.encode s) = s ∧
      ∀ bytes, (∀ t, Encoding.utf8.encode t ≠ bytes) → ¬ [0xFF, 0xFE] <+: bytes →
        ¬ [0xFE, 0xFF] <+: bytes → IsLatin1 (decode bytes) bytes := by
  have hutf16 : ∀ e : Encoding, e.slack = 1 → decode (e.encode s) = s := by
    intro e he
    have h : decode (e.encode s ++ []) = s := decode_encode_append he s (Nat.zero_le 1)
    rwa [List.append_nil] at h
  refine ⟨decode_encode_utf8_iff s, decode_encode_markedUtf8 s, hutf16 _ rfl, hutf16 _ rfl, ?_⟩
  intro bytes hutf8 hlittle hbig
  have hmarks : ∀ e : Encoding, e.slack = 1 → ¬ e.mark <+: bytes := by
    intro e he
    rcases Encoding.slack_eq_one_iff.mp he with rfl | rfl
    · exact hlittle
    · exact hbig
  rw [decode_of_not_utf8 hutf8 hmarks]
  exact isLatin1_ofLatin1 bytes

/-- A word in ISO-8859-1, and a character outside of the first plane. -/
theorem decode_encode_cafe :
    (∀ t, Encoding.utf8.encode t ≠ [0x63, 0x61, 0x66, 0xE9]) ∧
      IsLatin1 (decode [0x63, 0x61, 0x66, 0xE9]) [0x63, 0x61, 0x66, 0xE9] ∧
      decode [0xFF, 0xFE, 0x34, 0xD8, 0x1E, 0xDD] = "𝄞" := by
  have hutf8 : ∀ t, Encoding.utf8.encode t ≠ [0x63, 0x61, 0x66, 0xE9] :=
    (Encoding.decode?_eq_none_iff rfl).mp (by decide)
  exact ⟨hutf8, (decode_encode "").2.2.2.2 _ hutf8 (by decide) (by decide),
    (decode_encode "𝄞").2.2.1⟩

/-! ### Bytes that are lost -/

/-- What is read from a file has the bytes of the file in one of the encodings. -/
def IsLossless (bytes : List UInt8) : Prop :=
  (∃ e : Encoding, e.encode (decode bytes) = bytes) ∨ IsLatin1 (decode bytes) bytes

/-- Only a byte after a text in UTF-16 can be lost. -/
theorem isLossless_or_exists_stray (bytes : List UInt8) :
    IsLossless bytes ∨ ∃ (e : Encoding) (s : String) (x : UInt8),
      e.slack = 1 ∧ bytes = e.encode s ++ [x] := by
  rcases decode_cases bytes with ⟨e, he⟩ | ⟨-, hlatin1⟩
  · obtain ⟨stray, hstray, hbytes⟩ := Encoding.decode?_eq_some_iff.mp he
    cases stray with
    | nil =>
        rw [List.append_nil] at hbytes
        exact .inl (.inl ⟨e, hbytes.symm⟩)
    | cons x xs =>
        have hslack : e.slack ≤ 1 := by cases e <;> decide
        rw [List.length_cons] at hstray
        obtain rfl : xs = [] := List.length_eq_zero_iff.mp (by omega)
        exact .inr ⟨e, _, x, by omega, hbytes⟩
  · exact .inl (.inr (hlatin1 ▸ isLatin1_ofLatin1 bytes))

/-- A text in UTF-16 has more bytes than characters. -/
theorem length_lt_length_encode {e : Encoding} (he : e.slack = 1) (s : String) :
    s.toList.length < (e.encode s).length := by
  have hunits := length_le_length_units s.toList
  have hlength : (e.encode s).length = 2 + 2 * (units s.toList).length := by
    rcases Encoding.slack_eq_one_iff.mp he with rfl | rfl
    · exact List.length_append.trans (congrArg (2 + ·) (length_bytesOf _ _))
    · exact List.length_append.trans (congrArg (2 + ·) (length_bytesOf _ _))
  omega

/-- A byte after a text in UTF-16 is lost. -/
theorem not_isLossless_of_stray {e : Encoding} (he : e.slack = 1) (s : String) (x : UInt8) :
    ¬ IsLossless (e.encode s ++ [x]) := by
  have hread : decode (e.encode s ++ [x]) = s := decode_encode_append he s (Nat.le_refl 1)
  rw [IsLossless, hread]
  rintro (⟨e', he'⟩ | hlatin1)
  · by_cases hne : e' = e
    · subst hne
      simpa using congrArg List.length he'
    · have hnone := Encoding.decode?_eq_none_of_ne he hne
        ((e.mark_prefix_encode s).trans (List.prefix_append _ [x]))
      rw [← he', Encoding.decode?_encode] at hnone
      cases hnone
  · have hlength := congrArg List.length hlatin1
    have hlt := length_lt_length_encode he s
    simp only [List.length_map, List.length_append, List.length_cons, List.length_nil] at hlength
    omega

/-- **Which files can be told from what is read.** All but the texts in UTF-16 with a byte after
them. Of these the text is read, and the byte is lost. -/
theorem decode_lossless_iff (bytes : List UInt8) :
    (IsLossless bytes ↔ ¬ ∃ s x, bytes = Encoding.utf16Little.encode s ++ [x] ∨
        bytes = Encoding.utf16Big.encode s ++ [x]) ∧
      ∀ s x, bytes = Encoding.utf16Little.encode s ++ [x] ∨
        bytes = Encoding.utf16Big.encode s ++ [x] → decode bytes = s := by
  refine ⟨⟨?lost, ?kept⟩, ?read⟩
  case lost =>
    rintro hlossless ⟨s, x, rfl | rfl⟩
    · exact not_isLossless_of_stray rfl s x hlossless
    · exact not_isLossless_of_stray rfl s x hlossless
  case kept =>
    intro hnone
    refine (isLossless_or_exists_stray bytes).resolve_right ?_
    rintro ⟨e, s, x, he, hbytes⟩
    rcases Encoding.slack_eq_one_iff.mp he with rfl | rfl
    · exact hnone ⟨s, x, .inl hbytes⟩
    · exact hnone ⟨s, x, .inr hbytes⟩
  case read =>
    rintro s x (rfl | rfl)
    · exact decode_encode_append rfl s (Nat.le_refl 1)
    · exact decode_encode_append rfl s (Nat.le_refl 1)

theorem decode_lossless_iff_clef :
    ¬ IsLossless [0xFE, 0xFF, 0xD8, 0x34, 0xDD, 0x1E, 0x21] ∧
      decode [0xFE, 0xFF, 0xD8, 0x34, 0xDD, 0x1E, 0x21] = "𝄞" := by
  have hfile : [0xFE, 0xFF, 0xD8, 0x34, 0xDD, 0x1E, 0x21] =
      Encoding.utf16Big.encode "𝄞" ++ [0x21] := by decide
  obtain ⟨hlossless, hread⟩ := decode_lossless_iff [0xFE, 0xFF, 0xD8, 0x34, 0xDD, 0x1E, 0x21]
  exact ⟨fun h => hlossless.mp h ⟨"𝄞", 0x21, .inr hfile⟩, hread "𝄞" 0x21 (.inr hfile)⟩

/-- The last byte of this file is lost. -/
theorem not_isLossless_odd : ¬ IsLossless [0xFF, 0xFE, 0x68, 0x00, 0x3F] := by
  have hfile : Encoding.utf16Little.encode "h" ++ [0x3F] = [0xFF, 0xFE, 0x68, 0x00, 0x3F] := by
    decide
  exact hfile ▸ not_isLossless_of_stray rfl "h" 0x3F

end Variability.Text
