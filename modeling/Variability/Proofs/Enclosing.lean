import Mathlib.Data.List.Chain
import Variability.Proofs.Declared
import Variability.Proofs.Naming

/-!
# Types inside types

An index is a map from full names to what their declarations say. It is filled one declaration after
the other, member types before the type around them, and a declaration takes the place of an earlier
one of the same name. So the type that an entry names as its outer type is added later than the
entry, and what is then found under the outer name may come from another file.

Two facts hold all the same. A name that was added stays a name of the index, so no entry lies
inside a type that is missing. And an entry that lies inside a type has the name of this type in
front of its own, so the way outwards goes to shorter and shorter names. It ends, and the chain of a
type has on it what the type lies in, outermost first, and the type itself.

## Main results

* `Project.Index.get?_build`: the last declaration of a name counts.
* `Project.Index.contains_build_iff`: the names of the index are the declared ones.
* `Project.Index.wellFounded_encloses`: there is no endless way outwards.
* `Project.Index.IsChain.unique`: the way outwards is determined.
* `Project.Index.build_isNested`: entries and chains of the index of any files.
-/

namespace Variability.Project

open Java (FileSyntax TypeSyntax)

variable {files : List FileSyntax} {f : FileSyntax} {outer : Option String} {q : String}
  {t : TypeSyntax}

/-- What a file holds is declared when the file is indexed. -/
theorem declared_subset_declaredIn (i : Nat) (h : f.Holds outer q t) :
    declared i outer q t ⊆ declaredIn i f := by
  induction h with
  | top ht => exact fun u hu => List.mem_flatMap.mpr ⟨_, ht, hu⟩
  | @member outer q t u _ hu ih =>
      rw [declared_eq] at ih
      have hmembers := (declared_infix_declaredMembers (i := i) hu q).subset
      exact fun v hv => ih (List.mem_append_left _ (hmembers hv))

theorem infoOf_mem_declaredIn (i : Nat) (h : f.Holds outer q t) :
    infoOf i outer q t ∈ declaredIn i f := by
  apply declared_subset_declaredIn i h
  rw [declared_eq]
  exact List.mem_append_right _ List.mem_cons_self

namespace Index

/-! ### The index as a map -/

/-- An added type is found under its name, in place of any other. -/
theorem get?_insert (ix : Index) (u : TypeInfo) (k : String) :
    (ix.insert u).get? k = if u.qualified = k then some u else ix.get? k := by
  rw [get?, insert, List.find?_append]
  split
  · rename_i hk
    have hnone :
        (ix.types.filter (·.qualified != u.qualified)).find? (·.qualified == k) = none := by
      simp [hk]
    rw [hnone, Option.none_or, List.find?_singleton, if_pos (beq_iff_eq.mpr hk)]
  · rename_i hk
    have hkept : (ix.types.filter (·.qualified != u.qualified)).find? (·.qualified == k) =
        ix.types.find? (·.qualified == k) := by
      rw [List.find?_filter]
      congr 1
      funext v
      by_cases hv : v.qualified = k
      · simp [hv, Ne.symm hk]
      · simp [hv]
    rw [hkept, List.find?_singleton, if_neg (by simpa using hk), Option.or_none, get?]

/-- After types have been added, the last one of a name is found. -/
theorem get?_foldl_insert (us : List TypeInfo) (ix : Index) (k : String) :
    (us.foldl insert ix).get? k = (us.reverse.find? (·.qualified == k)).or (ix.get? k) := by
  induction us generalizing ix with
  | nil => rfl
  | cons u us ih =>
      rw [List.foldl_cons, ih, get?_insert, List.reverse_cons, List.find?_append, Option.or_assoc,
        List.find?_singleton]
      by_cases hk : u.qualified = k <;> simp [hk]

/-- **The last declaration of a name counts.** -/
theorem get?_build (files : List FileSyntax) (k : String) :
    (build files).get? k = (files.mapIdx declaredIn).flatten.reverse.find? (·.qualified == k) := by
  rw [build, get?_foldl_insert]
  exact Option.or_none

/-- **The names of the index are the declared ones**, at any depth. -/
theorem contains_build_iff {k : String} :
    (build files).contains k = true ↔ ∃ f ∈ files, ∃ outer t, f.Holds outer k t := by
  rw [contains]
  constructor
  · intro hsome
    obtain ⟨u, hget⟩ := Option.isSome_iff_exists.mp hsome
    obtain ⟨i, f, outer, t, hf, ht, -⟩ := exists_holds_of_get? hget
    exact ⟨f, List.mem_of_getElem? hf, outer, t, ht⟩
  · rintro ⟨f, hf, outer, t, ht⟩
    obtain ⟨i, hi⟩ := List.mem_iff_getElem?.mp hf
    have hfile : declaredIn i f ∈ files.mapIdx declaredIn :=
      List.mem_of_getElem? (i := i) (by rw [List.getElem?_mapIdx, hi]; rfl)
    rw [get?_build, List.find?_isSome]
    exact ⟨infoOf i outer k t, List.mem_reverse.mpr (List.mem_flatten_of_mem hfile
      (infoOf_mem_declaredIn i ht)), beq_self_eq_true k⟩

/-- What an entry lies in is in the index, and its name stands in front of the name of the entry. -/
theorem contains_outer {k o : String} {u : TypeInfo} (hget : (build files).get? k = some u)
    (houter : u.outer = some o) : (build files).contains o = true ∧ k = o ++ "." ++ u.simple := by
  obtain ⟨i, f, outer, t, hf, ht, rfl⟩ := exists_holds_of_get? hget
  obtain rfl : outer = some o := houter
  cases ht with
  | member hs _ =>
      exact ⟨contains_build_iff.mpr ⟨f, List.mem_of_getElem? hf, _, _, hs⟩, rfl⟩

/-! ### The way outwards -/

variable {ix : Index} {k : String} {chain : List String}

/-- `o` is the name of the type in which the entry of `k` lies. -/
def Encloses (ix : Index) (o k : String) : Prop := ∃ u, ix.get? k = some u ∧ u.outer = some o

/-- **There is no endless way outwards.** -/
theorem wellFounded_encloses (hix : ix.OutwardShortens) : WellFounded ix.Encloses := by
  refine Subrelation.wf (r := fun o k : String => o.length < k.length) ?_
    (measure String.length).wf
  rintro o k ⟨u, hget, houter⟩
  obtain ⟨hu, rfl⟩ := mem_of_get hget
  exact hix u hu o houter

/-- **The way outwards is determined.** -/
theorem IsChain.unique {chain' : List String} (h : ix.IsChain k chain) (h' : ix.IsChain k chain') :
    chain = chain' := by
  -- What is found under the name decides by which rule the way goes on.
  induction h generalizing chain' with
  | unknown hget =>
      cases h' with
      | unknown => rfl
      | top hget' => cases hget.symm.trans hget'
      | member hget' => cases hget.symm.trans hget'
  | top hget houter =>
      cases h' with
      | unknown hget' => cases hget.symm.trans hget'
      | top => rfl
      | member hget' houter' =>
          cases hget.symm.trans hget'
          cases houter.symm.trans houter'
  | member hget houter _ ih =>
      cases h' with
      | unknown hget' => cases hget.symm.trans hget'
      | top hget' houter' =>
          cases hget.symm.trans hget'
          cases houter.symm.trans houter'
      | member hget' houter' h' =>
          cases hget.symm.trans hget'
          cases houter.symm.trans houter'
          rw [ih h']

/-- The way from a type of the index ends with the type, and there is none from any other name. -/
theorem IsChain.getLast?_eq (h : ix.IsChain k chain) :
    chain.getLast? = if ix.contains k = true then some k else none := by
  cases h with
  | unknown hget => simp [contains, hget]
  | top hget => simp [contains, hget]
  | member hget => simp [contains, hget]

/-- Each type on the way lies in the one before. -/
theorem IsChain.linked (h : ix.IsChain k chain) : List.IsChain ix.Encloses chain := by
  induction h with
  | unknown => exact .nil
  | top => exact .singleton _
  | @member k o u chain hget houter h ih =>
      refine List.isChain_append.mpr ⟨ih, .singleton k, ?_⟩
      rintro p hp _ ⟨⟩
      rw [h.getLast?_eq, Option.mem_def, Option.ite_none_right_eq_some] at hp
      obtain ⟨-, hp⟩ := hp
      obtain rfl := Option.some.inj hp
      exact ⟨u, hget, houter⟩

/-- Where no outer type is missing, the way from a type starts with a type that lies in no other. -/
theorem IsChain.head?_eq (h : ix.IsChain k chain) (hk : ix.contains k = true)
    (houter : ∀ k u o, ix.get? k = some u → u.outer = some o → ix.contains o = true) :
    ∃ top u, chain.head? = some top ∧ ix.get? top = some u ∧ u.outer = none := by
  induction h with
  | unknown hget =>
      rw [contains, hget] at hk
      cases hk
  | @top k u hget hnone => exact ⟨k, u, rfl, hget, hnone⟩
  | @member k o u chain hget ho _ ih =>
      obtain ⟨top, v, htop, hv⟩ := ih (houter k u o hget ho)
      exact ⟨top, v, by rw [List.head?_append, htop, Option.some_or], hv⟩

/-- The types of an index lie one inside the other as their names say, and chains follow them. -/
structure IsNested (ix : Index) : Prop where
  /-- An entry has the name under which it is found. -/
  qualified : ∀ k u, ix.get? k = some u → u.qualified = k
  /-- What it lies in is in the index, and has the name that stands in front of the own one. -/
  outer : ∀ k u o, ix.get? k = some u → u.outer = some o →
    ix.contains o = true ∧ k = o ++ "." ++ u.simple
  /-- The way outwards ends from every name, and the chain of the name is what is on it. -/
  wellFounded : WellFounded ix.Encloses
  isChain_iff : ∀ k chain, ix.IsChain k chain ↔ chain = ix.chain k
  /-- The chain of a type goes from a type that lies in no other to the type itself. -/
  getLast? : ∀ k, ix.contains k = true → (ix.chain k).getLast? = some k
  head? : ∀ k, ix.contains k = true →
    ∃ top u, (ix.chain k).head? = some top ∧ ix.get? top = some u ∧ u.outer = none
  linked : ∀ k, ix.contains k = true → List.IsChain ix.Encloses (ix.chain k)

/-- **Chains are well-founded** in the index of any files, also where declarations share a name: the
names of the index are the declared ones, and their entries lie one inside the other. -/
theorem build_isNested (files : List FileSyntax) :
    (∀ k, (build files).contains k = true ↔ ∃ f ∈ files, ∃ outer t, f.Holds outer k t) ∧
      (build files).IsNested := by
  have hchain := isChain_chain files
  refine ⟨fun k => contains_build_iff, ?_⟩
  constructor
  case qualified => exact fun k u hget => (mem_of_get hget).2
  case outer => exact fun k u o => contains_outer
  case wellFounded => exact wellFounded_encloses (outwardShortens_build files)
  case isChain_iff =>
    refine fun k chain => ⟨fun h => h.unique (hchain k), ?_⟩
    rintro rfl
    exact hchain k
  case getLast? =>
    intro k hk
    rw [(hchain k).getLast?_eq, if_pos hk]
  case head? =>
    exact fun k hk => (hchain k).head?_eq hk fun k u o hget ho => (contains_outer hget ho).1
  case linked => exact fun k _ => (hchain k).linked

/-- A class with a member type, and a package that is named like the class and has a class that is
named like the member type. -/
def partFiles : List FileSyntax :=
  [{ package := some "shapes"
     types := [.mk { name := "Shape" } [.type (.mk { name := "Part" } [])]] },
    { package := some "shapes.Shape", types := [.mk { name := "Part" } []] }]

-- The later of the two types with one name counts: a class that lies in no other, or a member type.
example : (build partFiles).chain "shapes.Shape.Part" = ["shapes.Shape.Part"] ∧
    (build partFiles.reverse).chain "shapes.Shape.Part" =
      ["shapes.Shape", "shapes.Shape.Part"] := by
  decide +kernel

end Index

end Variability.Project
