import Variability.Proofs.Emission

/-!
# What an index holds

Every type of an index comes from a declaration in one of the files, at some depth. When several
declarations share a full name only one of them is kept, so nothing here asks for distinct names.

The types around a type are found by following the names of outer types from entry to entry. With
shared names, an entry may lead to an outer type of another declaration. It always leads to a
shorter name, so the walk ends (`Index.isChain_chain`).

## Main results

* `Project.describes_infoOf`: an entry says of a type what its declaration says.
* `Project.exists_holds_of_get?`: an entry is what some declaration says.
* `Project.find?_methods_isSome`: the methods of an entry are the declared ones that construct
  nothing.
* `Project.Index.isChain_chain`: the chain of a name is the whole way outwards.
-/

namespace Variability

open Java (Variable TypeSyntax Member MethodHead FileSyntax)

/-- A file holds a type, declared at some depth, under a full name and inside a type of another full
name. -/
inductive Java.FileSyntax.Holds (f : FileSyntax) : Option String → String → TypeSyntax → Prop
  | top {t : TypeSyntax} (ht : t ∈ f.types) : Holds f none (Name.qualify f.package t.head.name) t
  | member {outer : Option String} {q : String} {t u : TypeSyntax} (h : Holds f outer q t)
      (hu : .type u ∈ t.members) : Holds f (some q) (Name.child q u.head.name) u

namespace Project

variable {f : FileSyntax} {files : List FileSyntax} {u : TypeInfo}

/-! ### What a declaration says -/

/-- The members of a type, split into its fields, its methods and its member types, each in the
order in which they are written. -/
inductive MemberLists (kind : TypeKind) :
    List Member → List Variable → List MethodInfo → List String → Prop
  | nil : MemberLists kind [] [] [] []
  /-- Each name of a field declaration is a field, of the type that is written there. -/
  | field {type : String} {names : List String} {ms : List Member} {fields : List Variable}
      {methods : List MethodInfo} {types : List String}
      (h : MemberLists kind ms fields methods types) :
      MemberLists kind (.field type names :: ms)
        (names.map (fun name => ⟨type, name⟩) ++ fields) methods types
  /-- Constructors are not listed. -/
  | constructor {head : MethodHead} {body : List Java.Item} {ms : List Member}
      {fields : List Variable} {methods : List MethodInfo} {types : List String}
      (hhead : head.isConstructor = true) (h : MemberLists kind ms fields methods types) :
      MemberLists kind (.method head body :: ms) fields methods types
  /-- A method is abstract if it is declared so, or if it is a method of an interface that has no
  body and is neither static nor a default. -/
  | method {head : MethodHead} {body : List Java.Item} {m : MethodInfo} {ms : List Member}
      {fields : List Variable} {methods : List MethodInfo} {types : List String}
      (hhead : head.isConstructor = false) (hname : m.name = head.name)
      (hreturn : m.returnType = head.returnType)
      (habstract : m.isAbstract = true ↔ head.modifiers.isAbstract = true ∨
        (kind = .interfaceKind ∧ head.hasBody = false ∧ head.modifiers.isStatic = false ∧
          head.modifiers.isDefault = false))
      (h : MemberLists kind ms fields methods types) :
      MemberLists kind (.method head body :: ms) fields (m :: methods) types
  | type {t : TypeSyntax} {ms : List Member} {fields : List Variable}
      {methods : List MethodInfo} {types : List String}
      (h : MemberLists kind ms fields methods types) :
      MemberLists kind (.type t :: ms) fields methods (t.head.name :: types)

/-- An entry says what a declaration says: that of `t` under the name `q`, in the file at a position
and inside an outer type. -/
structure TypeInfo.Describes (u : TypeInfo) (file : Nat) (outer : Option String) (q : String)
    (t : TypeSyntax) : Prop where
  qualified : u.qualified = q
  simple : u.simple = t.head.name
  kind : u.kind = t.head.kind
  modifiers : u.modifiers = t.head.modifiers
  outer : u.outer = outer
  file : u.file = file
  superclass : u.superclass = t.head.superclass
  interfaces : u.interfaces = t.head.interfaces
  members : MemberLists t.head.kind t.members u.fields u.methods u.memberTypes

/-- The lists of an entry are those of the members. -/
theorem memberLists (kind : TypeKind) (ms : List Member) :
    MemberLists kind ms (ms.flatMap fieldsOf) (ms.filterMap (methodOf? kind))
      (ms.filterMap memberTypeOf?) := by
  induction ms with
  | nil => exact .nil
  | cons m ms ih =>
      cases m with
      | field type names => exact .field ih
      | method head body =>
          rw [List.filterMap_cons, methodOf?]
          cases hhead : head.isConstructor with
          | true => exact .constructor hhead ih
          | false =>
              refine .method hhead rfl rfl ?_ ih
              simp [and_assoc]
      | type t => exact .type ih

/-- **An entry is made of its declaration.** -/
theorem describes_infoOf (file : Nat) (outer : Option String) (q : String) (t : TypeSyntax) :
    (infoOf file outer q t).Describes file outer q t :=
  ⟨rfl, rfl, rfl, rfl, rfl, rfl, rfl, rfl, memberLists _ _⟩

/-! ### Declarations -/

mutual

/-- What is declared by a type comes from the file that holds the type. -/
theorem exists_holds_of_mem_declared (i : Nat) {outer : Option String} {q : String} :
    ∀ t : TypeSyntax, f.Holds outer q t → u ∈ declared i outer q t →
      ∃ outer q t, f.Holds outer q t ∧ u = infoOf i outer q t
  | .mk head members, h, hu => by
      rw [declared] at hu
      rcases List.mem_append.mp hu with hu | hu
      · exact exists_holds_of_mem_declaredMembers i members h (fun m hm => hm) hu
      · exact ⟨outer, q, .mk head members, h, List.mem_singleton.mp hu⟩

theorem exists_holds_of_mem_declaredMembers (i : Nat) {outer : Option String} {q : String}
    {t : TypeSyntax} : ∀ ms : List Member, f.Holds outer q t → (∀ m ∈ ms, m ∈ t.members) →
      u ∈ declaredMembers i q ms → ∃ outer q t, f.Holds outer q t ∧ u = infoOf i outer q t
  | [], _, _, hu => by
      rw [declaredMembers] at hu
      exact absurd hu List.not_mem_nil
  | .type s :: ms, h, hms, hu => by
      rw [declaredMembers] at hu
      rcases List.mem_append.mp hu with hu | hu
      · exact exists_holds_of_mem_declared i s (h.member (hms _ List.mem_cons_self)) hu
      · exact exists_holds_of_mem_declaredMembers i ms h
          (fun m hm => hms m (List.mem_cons_of_mem _ hm)) hu
  | .field _ _ :: ms, h, hms, hu => by
      rw [declaredMembers] at hu
      exact exists_holds_of_mem_declaredMembers i ms h
        (fun m hm => hms m (List.mem_cons_of_mem _ hm)) hu
  | .method _ _ :: ms, h, hms, hu => by
      rw [declaredMembers] at hu
      exact exists_holds_of_mem_declaredMembers i ms h
        (fun m hm => hms m (List.mem_cons_of_mem _ hm)) hu

end

/-- Adding types adds no others. -/
theorem Index.mem_types_foldl_insert {ts : List TypeInfo} {ix : Index}
    (hu : u ∈ (ts.foldl insert ix).types) : u ∈ ix.types ∨ u ∈ ts := by
  induction ts generalizing ix with
  | nil => exact Or.inl hu
  | cons t ts ih =>
      rcases ih hu with hu | hu
      · rcases List.mem_append.mp hu with hu | hu
        · exact Or.inl (List.mem_of_mem_filter hu)
        · exact Or.inr (List.mem_cons.mpr (Or.inl (List.mem_singleton.mp hu)))
      · exact Or.inr (List.mem_cons_of_mem _ hu)

/-- **An entry of the index is what some declaration says.** -/
theorem exists_holds_of_mem_types (hu : u ∈ (Index.build files).types) :
    ∃ i f outer t, files[i]? = some f ∧ f.Holds outer u.qualified t ∧
      u = infoOf i outer u.qualified t := by
  rcases Index.mem_types_foldl_insert hu with hu | hu
  · exact absurd hu List.not_mem_nil
  · obtain ⟨ts, hts, hu⟩ := List.mem_flatten.mp hu
    obtain ⟨i, hi, rfl⟩ := List.mem_mapIdx.mp hts
    obtain ⟨t, ht, hu⟩ := List.mem_flatMap.mp hu
    obtain ⟨outer, q, s, hs, rfl⟩ := exists_holds_of_mem_declared i t (.top ht) hu
    exact ⟨i, files[i], outer, s, List.getElem?_eq_getElem hi, hs, rfl⟩

theorem exists_holds_of_get? {q : String} (hget : (Index.build files).get? q = some u) :
    ∃ i f outer t, files[i]? = some f ∧ f.Holds outer q t ∧ u = infoOf i outer q t := by
  obtain ⟨hu, rfl⟩ := Index.mem_of_get hget
  exact exists_holds_of_mem_types hu

/-- The methods of an entry are the declared methods that are no constructors. -/
theorem find?_methods_isSome (i : Nat) (outer : Option String) (q : String) (t : TypeSyntax)
    (name : String) :
    ((infoOf i outer q t).methods.find? (·.name == name)).isSome ↔
      ∃ h body, .method h body ∈ t.members ∧ h.isConstructor = false ∧ h.name = name := by
  rw [List.find?_isSome]
  constructor
  · rintro ⟨m, hm, hname⟩
    obtain ⟨d, hd, hmethod⟩ := List.mem_filterMap.mp hm
    cases d with
    | field => cases hmethod
    | type => cases hmethod
    | method h body =>
        rw [methodOf?] at hmethod
        split at hmethod
        · cases hmethod
        · rename_i hconstructor
          cases hmethod
          exact ⟨h, body, hd, Bool.eq_false_iff.mpr hconstructor, eq_of_beq hname⟩
  · rintro ⟨h, body, hmem, hconstructor, rfl⟩
    obtain ⟨m, hm, hname⟩ : ∃ m, methodOf? t.head.kind (.method h body) = some m ∧
        m.name = h.name := by
      rw [methodOf?, hconstructor]
      exact ⟨_, rfl, rfl⟩
    exact ⟨m, List.mem_filterMap.mpr ⟨_, hmem, hm⟩, beq_iff_eq.mpr hname⟩

/-! ### Chains -/

namespace Index

variable {ix : Index}

/-- The way outwards from a name, as long as the names are in the index: the names on it, outermost
first. -/
inductive IsChain (ix : Index) : String → List String → Prop
  | unknown {q : String} (hget : ix.get? q = none) : IsChain ix q []
  | top {q : String} {t : TypeInfo} (hget : ix.get? q = some t) (houter : t.outer = none) :
      IsChain ix q [q]
  | member {q o : String} {t : TypeInfo} {chain : List String} (hget : ix.get? q = some t)
      (houter : t.outer = some o) (h : IsChain ix o chain) : IsChain ix q (chain ++ [q])

/-- Every entry is inside a type of a shorter name, if it is inside a type at all. -/
def OutwardShortens (ix : Index) : Prop :=
  ∀ t ∈ ix.types, ∀ o, t.outer = some o → o.length < t.qualified.length

/-- How many entries have a name that is no longer than `q`. -/
def noLonger (ix : Index) (q : String) : Nat :=
  ix.types.countP fun t => t.qualified.length ≤ q.length

/-- An entry is no longer than its own name. -/
theorem noLonger_pos {q : String} {t : TypeInfo} (hget : ix.get? q = some t) :
    0 < ix.noLonger q := by
  obtain ⟨ht, rfl⟩ := mem_of_get hget
  exact List.countP_pos_iff.mpr ⟨t, ht, by simp⟩

/-- Fewer entries are no longer than a name that is shorter than that of an entry. -/
theorem noLonger_lt {q o : String} {t : TypeInfo} (hget : ix.get? q = some t)
    (hshorter : o.length < q.length) : ix.noLonger o < ix.noLonger q := by
  obtain ⟨ht, rfl⟩ := mem_of_get hget
  obtain ⟨before, after, htypes⟩ := List.append_of_mem ht
  have hle : ∀ us : List TypeInfo, us.countP (fun u => u.qualified.length ≤ o.length) ≤
      us.countP fun u => u.qualified.length ≤ t.qualified.length := by
    refine fun us => List.countP_mono_left fun u _ hu => ?_
    simp only [decide_eq_true_eq] at hu ⊢
    omega
  have hbefore := hle before
  have hafter := hle after
  rw [noLonger, noLonger, htypes, List.countP_append, List.countP_append,
    List.countP_cons_of_neg (by simpa using hshorter), List.countP_cons_of_pos (by simp)]
  omega

/-- With as many steps as there are entries of names that are no longer, the walk outwards ends by
itself. -/
theorem isChain_outward (hix : ix.OutwardShortens) {fuel : Nat} {q : String}
    (hfuel : ix.noLonger q ≤ fuel) : ix.IsChain q (ix.outward fuel q).reverse := by
  induction fuel generalizing q with
  | zero =>
      cases hget : ix.get? q with
      | none => exact .unknown hget
      | some t =>
          have hpos := noLonger_pos hget
          omega
  | succ fuel ih =>
      cases hget : ix.get? q with
      | none =>
          rw [outward, hget]
          exact .unknown hget
      | some t =>
          obtain ⟨ht, rfl⟩ := mem_of_get hget
          simp only [outward, hget]
          cases houter : t.outer with
          | none => exact .top hget houter
          | some o =>
              have hless := noLonger_lt hget (hix t ht o houter)
              rw [Option.map_some, Option.getD_some, List.reverse_cons]
              exact .member hget houter (ih (by omega))

/-- What is declared inside a type has a longer name than the type. -/
theorem outwardShortens_build (files : List FileSyntax) : (build files).OutwardShortens := by
  intro t ht o houter
  obtain ⟨i, f, outer, s, -, hs, hinfo⟩ := exists_holds_of_mem_types ht
  obtain rfl : outer = some o := by
    rw [hinfo] at houter
    exact houter
  generalize t.qualified = q at hs
  cases hs with
  | member =>
      have hdot : ".".length = 1 := by decide
      rw [Name.child, String.length_append, String.length_append]
      omega

/-- **The chain of a name is the whole way outwards.** -/
theorem isChain_chain (files : List FileSyntax) (q : String) :
    (build files).IsChain q ((build files).chain q) :=
  isChain_outward (outwardShortens_build files) List.countP_le_length

end Index

end Project

end Variability
