import Variability.Proofs.Declared

/-!
# Calls and the types of call expressions

A call is resolved to a method by what it is called on: the current type, its superclass, an
enclosing type, a variable, a type, or the value of another expression, which may be a call again. The
type of a call expression is found by looking the method up a second time, in the declaring type of
the first answer.

Whatever the call is made on, the first look-up ends in a type that declares the method itself, or in
a type outside of the project (`Index.Calls`). In the first case the second look-up stops where it
starts, at the very same method. In the second case it finds nothing. The second look-up erases the
name of the declaring type, which leaves names alone that have no angle brackets.

## Main results

* `Project.Index.resultOf?_project`, `Project.Index.resultOf?_external`: the second look-up.
* `Project.invocation?_declares`: calls and call expressions, in the index of any files with plain
  names.
-/

namespace Variability

open Java (TypeSyntax FileSyntax Receiver Expr)

/-! ### Plain names -/

/-- A name without angle brackets. -/
def Name.IsPlain (name : String) : Prop := '<' ∉ name.toList

instance : DecidablePred Name.IsPlain := fun name =>
  inferInstanceAs (Decidable ('<' ∉ name.toList))

namespace Name

/-- Erasure leaves plain names alone. -/
theorem IsPlain.erasure_eq {name : String} (h : IsPlain name) : erasure name = name := by
  have hkept : name.toList.takeWhile (· != '<') = name.toList := by
    refine List.takeWhile_eq_self_iff.mpr fun c hc => ?_
    exact bne_iff_ne.mpr fun heq => h (heq ▸ hc)
  rw [erasure, hkept, String.ofList_toList]

theorem IsPlain.child {outer name : String} (houter : IsPlain outer) (hname : IsPlain name) :
    IsPlain (child outer name) := by
  have hdot : '<' ∉ ".".toList := by decide
  simp only [IsPlain, Name.child, String.toList_append, List.mem_append] at houter hname ⊢
  tauto

end Name

namespace Project

/-- Files in which no package and no type, at any depth, has angle brackets in its name. -/
def PlainNames (files : List FileSyntax) : Prop :=
  ∀ f ∈ files, (∀ package, f.package = some package → Name.IsPlain package) ∧
    ∀ outer q t, f.Holds outer q t → Name.IsPlain t.head.name

variable {files : List FileSyntax}

/-- Full names are plain where their segments are. -/
theorem PlainNames.of_holds (hfiles : PlainNames files) {f : FileSyntax} (hf : f ∈ files)
    {outer : Option String} {q : String} {t : TypeSyntax} (h : f.Holds outer q t) :
    Name.IsPlain q := by
  induction h with
  | @top t ht =>
      have hname := (hfiles f hf).2 _ _ _ (.top ht)
      cases hpackage : f.package with
      | none => exact hname
      | some package =>
          rw [Name.qualify]
          split
          · exact hname
          · exact ((hfiles f hf).1 package hpackage).child hname
  | @member outer q t u h hu ih => exact ih.child ((hfiles f hf).2 _ _ _ (h.member hu))

/-- The names in the index are plain. -/
theorem PlainNames.of_get? (hfiles : PlainNames files) {q : String} {t : TypeInfo}
    (hget : (Index.build files).get? q = some t) : Name.IsPlain q := by
  obtain ⟨i, f, outer, s, hf, hs, -⟩ := exists_holds_of_get? hget
  exact hfiles.of_holds (List.mem_of_getElem? hf) hs

/-! ### The second look-up -/

namespace Index

variable {ix : Index} {t : TypeInfo} {m : MethodInfo} {method : String}

/-- A search stops at its start if it can. -/
theorem nearest_of_hit {α : Type} {hit : TypeInfo → Option α} {q : String} {a : α}
    (hget : ix.get? q = some t) (ha : hit t = some a) : ix.nearest hit q = some a := by
  rw [nearest, searchBound, Nat.add_comm, search]
  simp [hget, ha]

theorem get?_of_not_contains {q : String} (h : ix.contains q = false) : ix.get? q = none :=
  Option.not_isSome_iff_eq_none.mp (Bool.eq_false_iff.mp h)

theorem search_nil {α : Type} {hit : TypeInfo → Option α} (fuel : Nat) (visited : List String) :
    ix.search hit fuel [] visited = none := by
  cases fuel <;> rfl

/-- A search finds nothing above a name that is not in the index. -/
theorem nearest_of_unknown {α : Type} {hit : TypeInfo → Option α} {q : String}
    (hget : ix.get? q = none) : ix.nearest hit q = none := by
  rw [nearest, searchBound, Nat.add_comm, search]
  simp [hget, search_nil]

/-- The result of a call of a method of the project has the written return type of this method,
resolved where the method is declared. -/
theorem resultOf?_project (hplain : Name.IsPlain t.qualified)
    (hget : ix.get? t.qualified = some t) (hm : t.methods.find? (·.name == method) = some m)
    (isAbstract : Bool) :
    ix.resultOf? { method, declaring := ix.typeRef t.qualified, isAbstract } =
      m.returnType.bind (ix.resolveType? { file := t.file, chain := ix.chain t.qualified }) := by
  have hagain : ix.findMethod? (ix.typeRef t.qualified).erasure method = some (t, m) := by
    rw [typeRef, hget, TypeRef.erasure, hplain.erasure_eq]
    exact nearest_of_hit hget (by rw [hm]; rfl)
  rw [resultOf?, hagain]
  rfl

/-- The result of a call of a method outside of the project has no type. -/
theorem resultOf?_external {r : TypeRef} (hr : ix.contains r.erasure = false) :
    ix.resultOf? { method, declaring := { r with qualified := r.erasure } } = none := by
  have hnone : ix.findMethod? (Name.erasure r.erasure) method = none := by
    rw [TypeRef.erasure, erasure_erasure]
    exact nearest_of_unknown (get?_of_not_contains hr)
  rw [resultOf?, TypeRef.erasure, hnone]
  rfl

end Index

/-! ### Calls -/

/-- **Calls are resolved to what declares the method, and call expressions to what it returns.** In
files with plain names, for every call in every scope: an invocation that the call is resolved to has
the called name. Its declaring type is in the index and declares a method of this name, and the first
such method says whether it is abstract and gives the type of the call expression, or the declaring
type is not in the index, the method is not abstract, and the call expression has no type. -/
theorem invocation?_declares (hfiles : PlainNames files) (b : BodyScope) (receiver : Receiver)
    (method : String) {i : Invocation}
    (hi : (Index.build files).invocation? b receiver method = some i) :
    i.method = method ∧
      ((∃ t m, (Index.build files).get? i.declaring.qualified = some t ∧
          t.methods.find? (·.name == method) = some m ∧ i.isAbstract = m.isAbstract ∧
          (Index.build files).exprType? b (.call receiver method) =
            m.returnType.bind ((Index.build files).resolveType?
              { file := t.file, chain := (Index.build files).chain t.qualified })) ∨
        ((Index.build files).get? i.declaring.qualified = none ∧ i.isAbstract = false ∧
          (Index.build files).exprType? b (.call receiver method) = none)) := by
  have htype : (Index.build files).exprType? b (.call receiver method) =
      (Index.build files).resultOf? i := by
    rw [Index.exprType?, hi]
    rfl
  rw [htype]
  cases Index.calls_invocation hi with
  | @project t m hget hm =>
      refine ⟨rfl, Or.inl ⟨t, m, ?_, hm, rfl, ?_⟩⟩
      · rw [Index.typeRef, hget]
        exact hget
      · exact Index.resultOf?_project (hfiles.of_get? hget) hget hm _
  | external hr =>
      exact ⟨rfl, Or.inr ⟨Index.get?_of_not_contains hr, rfl, Index.resultOf?_external hr⟩⟩

/-- An interface with a method that gives such an object again, and a class that implements it. -/
def twinFile : FileSyntax where
  path := "Shape.java"
  package := some "shapes"
  types := [.mk { name := "Shape", kind := .interfaceKind }
      [.method { name := "twin", returnType := some "Shape" } []],
    .mk { name := "Circle", interfaces := ["Shape"] } []]

/-- Inside the class. -/
def twinScope : BodyScope := { scope := { chain := ["shapes.Circle"] } }

/-- The method that the interface declares, as a call of it is resolved. -/
def twinCall : Invocation where
  method := "twin"
  declaring := { qualified := "shapes.Shape", simple := "Shape", isInterface := true }
  isAbstract := true

/-- Nothing is declared inside its types. -/
theorem mem_types_twinFile {outer : Option String} {q : String} {t : TypeSyntax}
    (h : twinFile.Holds outer q t) : t ∈ twinFile.types := by
  induction h with
  | top ht => exact ht
  | member _ hu ih =>
      simp only [twinFile, List.mem_cons, List.not_mem_nil, or_false] at ih
      rcases ih with rfl | rfl <;> simp [TypeSyntax.members] at hu

theorem invocation?_declares_twin :
    PlainNames [twinFile] ∧
    (Index.build [twinFile]).invocation? twinScope (.expr (.call .implicit "twin")) "twin" =
      some twinCall ∧
    twinCall.method = "twin" ∧
      ((∃ t m, (Index.build [twinFile]).get? "shapes.Shape" = some t ∧
          t.methods.find? (·.name == "twin") = some m ∧ twinCall.isAbstract = m.isAbstract ∧
          (Index.build [twinFile]).exprType? twinScope
              (.call (.expr (.call .implicit "twin")) "twin") =
            m.returnType.bind ((Index.build [twinFile]).resolveType?
              { file := t.file, chain := (Index.build [twinFile]).chain t.qualified })) ∨
        ((Index.build [twinFile]).get? "shapes.Shape" = none ∧ twinCall.isAbstract = false ∧
          (Index.build [twinFile]).exprType? twinScope
            (.call (.expr (.call .implicit "twin")) "twin") = none)) := by
  have hplain : PlainNames [twinFile] := by
    intro f hf
    obtain rfl := List.mem_singleton.mp hf
    have hpackage : Name.IsPlain "shapes" := by decide
    have hnames : ∀ t ∈ twinFile.types, Name.IsPlain t.head.name := by decide +kernel
    exact ⟨fun package h => Option.some.inj h ▸ hpackage,
      fun outer q t h => hnames t (mem_types_twinFile h)⟩
  have hcall : (Index.build [twinFile]).invocation? twinScope
      (.expr (.call .implicit "twin")) "twin" = some twinCall := by decide +kernel
  exact ⟨hplain, hcall, invocation?_declares hplain twinScope _ "twin" hcall⟩

end Project

end Variability
