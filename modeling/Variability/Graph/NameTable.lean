/-!
# Tables of names

A table files numbers under texts, so that the numbers under one text are found without a look at
the others. They are listed in the order in which they were filed.

The table of some texts (`NameTable.ofKeys`) has the position of each text filed under it.
-/

namespace Variability

/-- Numbers filed under texts. -/
structure NameTable where
  entries : List (String × List Nat) := []
  deriving DecidableEq, Repr, Inhabited

namespace NameTable

/-- The numbers that entries have under a text. -/
def getIn (key : String) : List (String × List Nat) → List Nat
  | [] => []
  | (k, ids) :: rest => if k = key then ids else getIn key rest

/-- Entries with one more number, the last under its text. -/
def fileIn (key : String) (id : Nat) : List (String × List Nat) → List (String × List Nat)
  | [] => [(key, [id])]
  | (k, ids) :: rest =>
    if k = key then (k, ids ++ [id]) :: rest else (k, ids) :: fileIn key id rest

/-- The numbers filed under a text, the first one first. -/
def get (t : NameTable) (key : String) : List Nat := getIn key t.entries

/-- Files a number under a text. -/
def file (t : NameTable) (key : String) (id : Nat) : NameTable := ⟨fileIn key id t.entries⟩

/-- The positions of some texts, each filed under its text. -/
def ofKeys (keys : List String) : NameTable :=
  keys.zipIdx.foldl (fun t (key, id) => t.file key id) {}

/-- Filing a number adds it under its text and under no other. -/
@[simp] theorem get_file (t : NameTable) (key key' : String) (id : Nat) :
    (t.file key id).get key' = t.get key' ++ if key = key' then [id] else [] := by
  rcases t with ⟨entries⟩
  simp only [get, file]
  induction entries with
  | nil => by_cases h : key = key' <;> simp [fileIn, getIn, h]
  | cons entry rest ih =>
    obtain ⟨k, ids⟩ := entry
    by_cases hk : k = key
    · by_cases h : key = key' <;> simp [fileIn, getIn, hk, h]
    · by_cases h : k = key'
      · subst h
        simp [fileIn, getIn, hk, Ne.symm hk]
      · simp [fileIn, getIn, hk, h, ih]

/-- One text more is one number more, filed last. -/
theorem ofKeys_concat (keys : List String) (key : String) :
    ofKeys (keys ++ [key]) = (ofKeys keys).file key keys.length := by
  simp [ofKeys, List.zipIdx_append, List.foldl_append]

/-- The numbers under a text are the positions where it stands, in order. -/
theorem get_ofKeys (keys : List String) (key : String) :
    (ofKeys keys).get key = (List.range keys.length).filter fun id => keys[id]? == some key := by
  -- Numbers are filed from the first text to the last, so the induction is from the end.
  rw [← List.reverse_reverse keys]
  induction keys.reverse with
  | nil => rfl
  | cons last keys ih =>
    rw [List.reverse_cons, ofKeys_concat, get_file, ih, List.length_append, List.length_singleton,
      List.range_succ, List.filter_append]
    congr 1
    · refine List.filter_congr fun id hid => ?_
      rw [List.getElem?_append_left (List.mem_range.mp hid)]
    · by_cases h : last = key <;> simp [h]

end NameTable

end Variability
