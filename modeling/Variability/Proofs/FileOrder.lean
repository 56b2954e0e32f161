import Variability.Proofs.Naming

/-!
# The order of files

Files are known to the index by their positions, and a type of the index carries the position of
its file, so that another order of the files gives another index. Nothing that a unit says depends
on it, if all full names are distinct. Two orders give indexes that are alike (`Index.Alike`): under
every name they have the same type but for the position, and at both positions they have the same
scope of a file. Everything that is looked up, resolved or typed goes through these two answers, and
the bounds of the searches are the same as well, so that alike indexes answer all questions alike.

## Main results

* `Project.Index.Alike.resolveType?`, `Project.Index.Alike.findField?`,
  `Project.Index.Alike.invocation?`: alike indexes resolve, look up and type alike.
* `Project.alike_build`: files in another order have an index that is alike.
* `Project.units_perm`: they have the same units.
-/

namespace Variability.Project

open Java (Expr Receiver TypeSyntax Member Item FileSyntax)

/-! ### Positions -/

/-- The same type, of a file at another position. -/
def TypeInfo.movedTo (t : TypeInfo) (file : Nat) : TypeInfo := { t with file }

/-- The same scope, in a file at another position. -/
def Scope.movedTo (s : Scope) (file : Nat) : Scope := { s with file }

/-- The same place in a body, in a file at another position. -/
def BodyScope.movedTo (b : BodyScope) (file : Nat) : BodyScope :=
  { b with scope := b.scope.movedTo file }

namespace Index

/-- Under every name, two indexes have the same type but for the position of its file, and there
they have the same scope. They are of the same size. -/
structure Alike (ix ix' : Index) : Prop where
  get? : ∀ q, (ix.get? q = none ∧ ix'.get? q = none) ∨ ∃ t file, ix.get? q = some t ∧
    ix'.get? q = some (t.movedTo file) ∧ ix'.files[file]? = ix.files[t.file]?
  length : ix'.types.length = ix.types.length
  searchBound : ix'.searchBound = ix.searchBound

/-- A field of an object other than the current one is looked up in the type of the object. -/
theorem exprType?_field {ix : Index} {b : BodyScope} {object : Expr} (hself : object ≠ .self)
    {f : String} : ix.exprType? b (.field object f) =
      (ix.exprType? b object).bind fun r => ix.findField? r.erasure f := by
  cases object with
  | self => exact absurd rfl hself
  | _ => rw [Index.exprType?.eq_def]

/-- A method that is called on no plain name is looked up in the type of the expression. -/
theorem invocation?_expr {ix : Index} {b : BodyScope} {e : Expr} (hname : ¬ ∃ n, e = .name n)
    {method : String} :
    ix.invocation? b (.expr e) method = ix.callOnValue? method (ix.exprType? b e) := by
  cases e with
  | name n => exact absurd ⟨n, rfl⟩ hname
  | _ => rw [Index.invocation?.eq_def]

namespace Alike

variable {ix ix' : Index} (H : ix.Alike ix')
include H

/-! ### Names -/

theorem contains : ix'.contains = ix.contains := by
  funext q
  rcases H.get? q with ⟨h, h'⟩ | ⟨t, file, h, h', -⟩
  · rw [Index.contains, Index.contains, h, h']
  · rw [Index.contains, Index.contains, h, h']
    rfl

theorem typeRef : ix'.typeRef = ix.typeRef := by
  funext q
  rcases H.get? q with ⟨h, h'⟩ | ⟨t, file, h, h', -⟩
  · rw [Index.typeRef, Index.typeRef, h, h']
  · rw [Index.typeRef, Index.typeRef, h, h']
    rfl

theorem enclosed? (name : String) : ix'.enclosed? name = ix.enclosed? name := by
  funext q
  rcases H.get? q with ⟨h, h'⟩ | ⟨t, file, h, h', -⟩
  · rw [Index.enclosed?, Index.enclosed?, h, h']
  · rw [Index.enclosed?, Index.enclosed?, h, h']
    rfl

theorem outward (fuel : Nat) : ix'.outward fuel = ix.outward fuel := by
  induction fuel with
  | zero => rfl
  | succ fuel ih =>
      funext q
      rcases H.get? q with ⟨h, h'⟩ | ⟨t, file, h, h', -⟩
      · rw [Index.outward, Index.outward, h, h']
      · rw [Index.outward, Index.outward, h, h', ih]
        rfl

theorem chain : ix'.chain = ix.chain := by
  funext q
  rw [Index.chain, Index.chain, H.length, H.outward]

theorem inFile? : ix'.inFile? = ix.inFile? := by
  funext file name
  rw [Index.inFile?, Index.inFile?, Index.importedOnDemand?, Index.importedOnDemand?, H.contains]

section Moved

variable {s : Scope} {file : Nat} (hfile : ix'.files[file]? = ix.files[s.file]?)
include hfile

theorem resolveSimple? : ix'.resolveSimple? (s.movedTo file) = ix.resolveSimple? s := by
  funext name
  rw [Index.resolveSimple?, Index.resolveSimple?, H.enclosed?, H.inFile?]
  simp only [Scope.movedTo, hfile]

theorem resolveBase? : ix'.resolveBase? (s.movedTo file) = ix.resolveBase? s := by
  funext base
  rw [Index.resolveBase?, Index.resolveBase?, H.resolveSimple? hfile]

/-- **Alike indexes resolve written types alike.** -/
theorem resolveType? : ix'.resolveType? (s.movedTo file) = ix.resolveType? s := by
  funext text
  rw [Index.resolveType?, Index.resolveType?, H.resolveBase? hfile, H.typeRef]

theorem staticReceiver? : ix'.staticReceiver? (s.movedTo file) = ix.staticReceiver? s := by
  funext name
  rw [Index.staticReceiver?, Index.staticReceiver?, H.resolveBase? hfile, H.typeRef]

end Moved

/-! ### Members -/

theorem scopeOf (t : TypeInfo) (file : Nat) :
    ix'.scopeOf (t.movedTo file) = (ix.scopeOf t).movedTo file := by
  rw [Index.scopeOf, Index.scopeOf, H.chain]
  rfl

/-- What stands in the body of a type is resolved alike. -/
theorem resolveType?_scopeOf {t : TypeInfo} {file : Nat}
    (hfile : ix'.files[file]? = ix.files[t.file]?) :
    ix'.resolveType? (ix'.scopeOf (t.movedTo file)) = ix.resolveType? (ix.scopeOf t) := by
  rw [H.scopeOf]
  exact H.resolveType? (s := ix.scopeOf t) hfile

theorem supertypes : ix'.supertypes = ix.supertypes := by
  funext q
  rcases H.get? q with ⟨h, h'⟩ | ⟨t, file, h, h', hfile⟩
  · rw [Index.supertypes, Index.supertypes, h, h']
  · rw [Index.supertypes, Index.supertypes, h, h']
    simp only [H.resolveType?_scopeOf hfile]
    rfl

/-- Searches for answers that say the same find what says the same. -/
theorem search {α β γ : Type} {hit : TypeInfo → Option α} {hit' : TypeInfo → Option β}
    {say : α → γ} {say' : β → γ}
    (hsay : ∀ t file, ix'.files[file]? = ix.files[t.file]? →
      (hit' (t.movedTo file)).map say' = (hit t).map say) (fuel : Nat)
    (queue visited : List String) :
    (ix'.search hit' fuel queue visited).map say' = (ix.search hit fuel queue visited).map say := by
  induction fuel generalizing queue visited with
  | zero => rfl
  | succ fuel ih =>
      cases queue with
      | nil => rfl
      | cons q queue =>
          rw [Index.search, Index.search]
          by_cases hvisited : visited.contains q = true
          · rw [if_pos hvisited, if_pos hvisited]
            exact ih queue visited
          · rw [if_neg hvisited, if_neg hvisited]
            rcases H.get? q with ⟨h, h'⟩ | ⟨t, file, h, h', hfile⟩
            · rw [h, h']
              exact ih queue (q :: visited)
            · have hanswer := hsay t file hfile
              rw [h, h']
              simp only
              cases hhit : hit t with
              | none =>
                  rw [hhit, Option.map_none, Option.map_eq_none_iff] at hanswer
                  rw [hanswer, Index.supertypeNames, Index.supertypeNames, H.supertypes]
                  exact ih _ (q :: visited)
              | some a =>
                  rw [hhit, Option.map_some] at hanswer
                  obtain ⟨b, hb, hab⟩ := Option.map_eq_some_iff.mp hanswer
                  rw [hb]
                  exact congrArg some hab

theorem nearest {α β γ : Type} {hit : TypeInfo → Option α} {hit' : TypeInfo → Option β}
    {say : α → γ} {say' : β → γ}
    (hsay : ∀ t file, ix'.files[file]? = ix.files[t.file]? →
      (hit' (t.movedTo file)).map say' = (hit t).map say) (start : String) :
    (ix'.nearest hit' start).map say' = (ix.nearest hit start).map say := by
  rw [Index.nearest, Index.nearest, H.searchBound]
  exact H.search hsay _ _ _

/-- **Alike indexes find fields of the same types.** -/
theorem findField? : ix'.findField? = ix.findField? := by
  funext q name
  let hit (ix : Index) (t : TypeInfo) : Option (Option TypeRef) :=
    (t.fields.find? (·.name == name)).map fun f => ix.resolveType? (ix.scopeOf t) f.type
  have hhit : ∀ t file, ix'.files[file]? = ix.files[t.file]? →
      (hit ix' (t.movedTo file)).map id = (hit ix t).map id := by
    intro t file hfile
    simp only [hit, H.resolveType?_scopeOf hfile]
    rfl
  have hnearest := H.nearest hhit q
  rw [Option.map_id] at hnearest
  exact congrArg Option.join hnearest

/-- What is said of a method that is found, from its type and its declaration, is the same, if it
is the same of every type at both positions. -/
theorem findMethod? {γ : Type} {say say' : TypeInfo × MethodInfo → γ}
    (hsay : ∀ t file m, ix'.files[file]? = ix.files[t.file]? →
      say' (t.movedTo file, m) = say (t, m)) (q method : String) :
    (ix'.findMethod? q method).map say' = (ix.findMethod? q method).map say := by
  refine H.nearest (fun t file hfile => ?_) q
  rw [Option.map_map, Option.map_map]
  exact congrArg (Option.map · _) (funext fun m => hsay t file m hfile)

/-! ### Calls and expressions -/

theorem projectCall? : ix'.projectCall? = ix.projectCall? := by
  funext method owner
  rw [Index.projectCall?, Index.projectCall?, H.typeRef]
  exact H.findMethod? (fun _ _ _ _ => rfl) owner method

theorem callOn? : ix'.callOn? = ix.callOn? := by
  funext method receiver
  rw [Index.callOn?, Index.callOn?, Index.externalCall?, Index.externalCall?, H.projectCall?,
    H.contains]

theorem callOnValue? : ix'.callOnValue? = ix.callOnValue? := by
  funext method receiver
  rw [Index.callOnValue?, Index.callOnValue?, H.callOn?]

theorem resultOf? : ix'.resultOf? = ix.resultOf? := by
  funext i
  have hresult : ∀ ix : Index, ix.resultOf? i =
      ((ix.findMethod? i.declaring.erasure i.method).map fun x =>
        x.2.returnType.bind (ix.resolveType? (ix.scopeOf x.1))).join := by
    intro ix
    rw [Index.resultOf?]
    cases ix.findMethod? i.declaring.erasure i.method <;> rfl
  rw [hresult, hresult]
  refine congrArg Option.join (H.findMethod? (fun t file m hfile => ?_) _ _)
  rw [H.resolveType?_scopeOf hfile]

variable {b : BodyScope} {file : Nat} (hfile : ix'.files[file]? = ix.files[b.scope.file]?)
include hfile

theorem varType? : ix'.varType? (b.movedTo file) = ix.varType? b := by
  funext name
  have hresolve : ix'.resolveType? (b.scope.movedTo file) = ix.resolveType? b.scope :=
    H.resolveType? hfile
  simp only [Index.varType?, BodyScope.movedTo, hresolve, H.findField?]
  rfl

mutual

/-- Alike indexes type expressions alike. -/
theorem exprType? : ∀ e : Expr, ix'.exprType? (b.movedTo file) e = ix.exprType? b e
  | .null => by simp only [Index.exprType?]
  | .creation _ true => by simp only [Index.exprType?]
  | .creation type false => by
      simp only [Index.exprType?]
      exact congrFun (H.resolveType? hfile) type
  | .cast type => by
      simp only [Index.exprType?]
      exact congrFun (H.resolveType? hfile) type
  | .arrayCreation type => by
      simp only [Index.exprType?]
      exact congrFun (H.resolveType? hfile) type
  | .self => by
      simp only [Index.exprType?, H.typeRef]
      rfl
  | .name n => by simp only [Index.exprType?, H.varType? hfile]
  | .field object f => by
      have hobject := exprType? object
      by_cases hself : object = .self
      · subst hself
        simp only [Index.exprType?, H.findField?]
        rfl
      · rw [exprType?_field hself, exprType?_field hself, hobject, H.findField?]
  | .literal _ => by simp only [Index.exprType?]
  | .call receiver method => by
      simp only [Index.exprType?, invocation? receiver method, H.resultOf?]
  | .other => by simp only [Index.exprType?]

/-- **Alike indexes find the same methods for calls.** -/
theorem invocation? : ∀ (receiver : Receiver) (method : String),
    ix'.invocation? (b.movedTo file) receiver method = ix.invocation? b receiver method
  | .implicit, method => by
      simp only [Index.invocation?, H.projectCall?]
      rfl
  | .self, method => by
      simp only [Index.invocation?, H.projectCall?]
      rfl
  | .super, method => by
      simp only [Index.invocation?, H.supertypes, H.callOn?]
      rfl
  | .expr e, method => by
      have htype := exprType? e
      by_cases hname : ∃ n, e = .name n
      · obtain ⟨n, rfl⟩ := hname
        have hstatic : ix'.staticReceiver? (b.scope.movedTo file) = ix.staticReceiver? b.scope :=
          H.staticReceiver? hfile
        simp only [Index.invocation?, H.callOnValue?, H.varType? hfile]
        rw [← hstatic]
        rfl
      · rw [invocation?_expr hname, invocation?_expr hname, htype, H.callOnValue?]

end

end Alike

end Index

/-! ### Units -/

/-- The same file, at another position of another index. -/
def Place.movedTo (p : Place) (ix : Index) (file : Nat) : Place := { p with index := ix, file }

namespace Place

variable {p : Place} {ix : Index} {file : Nat}

theorem declaration_movedTo (H : p.index.Alike ix) (chain : List String) (h : Java.TypeHead) :
    (p.movedTo ix file).declaration chain h = p.declaration chain h := by
  simp only [declaration, movedTo, H.supertypes]
  rfl

section

variable (H : p.index.Alike ix) (hfile : ix.files[file]? = p.index.files[p.file]?)
include H hfile

theorem resolveType?_movedTo (chain : List String) :
    (p.movedTo ix file).index.resolveType? ((p.movedTo ix file).scope chain) =
      p.index.resolveType? (p.scope chain) :=
  H.resolveType? (s := p.scope chain) hfile

theorem exprType?_movedTo (chain : List String) (h : Java.MethodHead) :
    (p.movedTo ix file).index.exprType? ((p.movedTo ix file).body chain h) =
      p.index.exprType? (p.body chain h) :=
  funext (H.exprType? (b := p.body chain h) hfile)

theorem invocation?_movedTo (chain : List String) (h : Java.MethodHead) (receiver : Receiver)
    (name : String) :
    (p.movedTo ix file).index.invocation? ((p.movedTo ix file).body chain h) receiver name =
      p.index.invocation? (p.body chain h) receiver name :=
  H.invocation? (b := p.body chain h) hfile receiver name

theorem method_movedTo (chain : List String) (declaring : TypeRef) (h : Java.MethodHead) :
    (p.movedTo ix file).method chain declaring h = p.method chain declaring h := by
  rw [method, method, returnType?, returnType?, resolveType?_movedTo H hfile]

theorem enclosing_movedTo (chain : List String) (declaring : TypeRef) (h : Java.MethodHead) :
    (p.movedTo ix file).enclosing chain declaring h = p.enclosing chain declaring h := by
  rw [enclosing, enclosing, returnType?, returnType?, resolveType?_movedTo H hfile]

end

mutual

/-- The events of a type do not depend on the position of its file. -/
theorem typeEvents_movedTo (H : p.index.Alike ix)
    (hfile : ix.files[file]? = p.index.files[p.file]?) (chain : List String) :
    ∀ t, (p.movedTo ix file).typeEvents chain t = p.typeEvents chain t
  | .mk h members => by
      rw [typeEvents, typeEvents, declaration_movedTo H, memberEvents_movedTo H hfile]
      rfl

theorem memberEvents_movedTo (H : p.index.Alike ix)
    (hfile : ix.files[file]? = p.index.files[p.file]?) (chain : List String)
    (declaring : TypeRef) :
    ∀ ms, (p.movedTo ix file).memberEvents chain declaring ms = p.memberEvents chain declaring ms
  | [] => by rw [memberEvents, memberEvents]
  | .field type names :: ms => by
      rw [memberEvents, memberEvents, memberEvents_movedTo H hfile, resolveType?_movedTo H hfile]
  | .method h items :: ms => by
      rw [memberEvents, memberEvents, memberEvents_movedTo H hfile, method_movedTo H hfile,
        enclosing_movedTo H hfile, itemEvents_movedTo H hfile]
  | .type t :: ms => by
      rw [memberEvents, memberEvents, typeEvents_movedTo H hfile, memberEvents_movedTo H hfile]

theorem itemEvents_movedTo (H : p.index.Alike ix)
    (hfile : ix.files[file]? = p.index.files[p.file]?) (chain : List String)
    (method : EnclosingMethod) (h : Java.MethodHead) :
    ∀ is, (p.movedTo ix file).itemEvents chain method ((p.movedTo ix file).body chain h) is =
      p.itemEvents chain method (p.body chain h) is
  | [] => by rw [itemEvents, itemEvents]
  | .call receiver name :: is => by
      rw [itemEvents, itemEvents, itemEvents_movedTo H hfile, invocation?_movedTo H hfile]
  | .returning value :: is => by
      rw [itemEvents, itemEvents, itemEvents_movedTo H hfile, exprType?_movedTo H hfile]
  | .anonymous t :: is => by
      rw [itemEvents, itemEvents, typeEvents_movedTo H hfile, itemEvents_movedTo H hfile]

end

end Place

/-- Alike indexes give the same unit of a file, at positions with the same scope. -/
theorem Index.Alike.unitOf {ix ix' : Index} (H : ix.Alike ix') {i j : Nat}
    (hfile : ix'.files[j]? = ix.files[i]?) (f : FileSyntax) :
    Project.unitOf ix' j f = Project.unitOf ix i f := by
  have hevents : Place.typeEvents { index := ix', file := j, package := f.package } [] =
      Place.typeEvents { index := ix, file := i, package := f.package } [] :=
    funext (Place.typeEvents_movedTo (p := { index := ix, file := i, package := f.package }) H
      hfile [])
  rw [Project.unitOf, Project.unitOf]
  simp only [hevents]

/-! ### Files in another order -/

mutual

theorem declared_movedTo (i j : Nat) (outer : Option String) (q : String) :
    ∀ t, declared j outer q t = (declared i outer q t).map (·.movedTo j)
  | .mk head members => by
      rw [declared, declared, declaredMembers_movedTo i j, List.map_append]
      rfl

theorem declaredMembers_movedTo (i j : Nat) (outer : String) :
    ∀ ms, declaredMembers j outer ms = (declaredMembers i outer ms).map (·.movedTo j)
  | [] => by rw [declaredMembers, declaredMembers, List.map_nil]
  | .type t :: ms => by
      rw [declaredMembers, declaredMembers, declared_movedTo i j, declaredMembers_movedTo i j,
        List.map_append]
  | .field _ _ :: ms => by
      rw [declaredMembers, declaredMembers, declaredMembers_movedTo i j]
  | .method _ _ :: ms => by
      rw [declaredMembers, declaredMembers, declaredMembers_movedTo i j]

end

/-- At another position, a file declares the same types. -/
theorem declaredIn_movedTo (f : FileSyntax) (i j : Nat) :
    declaredIn j f = (declaredIn i f).map (·.movedTo j) := by
  rw [declaredIn, declaredIn, List.map_flatMap]
  exact List.flatMap_congr fun t _ => declared_movedTo i j none _ t

theorem Index.files_foldl_insert (ts : List TypeInfo) (ix : Index) :
    (ts.foldl insert ix).files = ix.files := by
  induction ts generalizing ix with
  | nil => rfl
  | cons t ts ih => exact ih (ix.insert t)

/-- The index has the scope of every file at the position of the file. -/
theorem Index.files_build (files : List FileSyntax) : (Index.build files).files =
    files.map fun f => { package := f.package, imports := f.imports } :=
  files_foldl_insert _ _

variable {files files' : List FileSyntax}

/-- But for the positions, the declared types of some files do not depend on their order. -/
theorem perm_declared (hperm : files.Perm files') :
    ((files.mapIdx declaredIn).flatten.map (·.movedTo 0)).Perm
      ((files'.mapIdx declaredIn).flatten.map (·.movedTo 0)) := by
  have hmoved : ∀ files : List FileSyntax,
      (files.mapIdx declaredIn).flatten.map (·.movedTo 0) = files.flatMap (declaredIn 0) := by
    intro files
    rw [List.map_flatten, List.flatMap_def]
    refine congrArg List.flatten (List.ext_getElem? fun i => ?_)
    rw [List.getElem?_map, List.getElem?_mapIdx, List.getElem?_map, Option.map_map]
    exact congrArg (Option.map · _) (funext fun f => (declaredIn_movedTo f i 0).symm)
  rw [hmoved, hmoved]
  exact hperm.flatMap_right _

theorem nodup_declaredNames (hnames : (declaredNames files).Nodup) (hperm : files.Perm files') :
    (declaredNames files').Nodup := by
  have hmoved : ∀ files : List FileSyntax, declaredNames files =
      ((files.mapIdx declaredIn).flatten.map (·.movedTo 0)).map (·.qualified) := by
    intro files
    rw [declaredNames, List.map_map]
    rfl
  rw [hmoved] at hnames ⊢
  exact (((perm_declared hperm).map _).nodup_iff).mp hnames

/-- A type of the index is declared in the file at its position. -/
theorem exists_of_get? {q : String} {t : TypeInfo} (hnames : (declaredNames files).Nodup)
    (hget : (Index.build files).get? q = some t) :
    ∃ f, files[t.file]? = some f ∧ t ∈ declaredIn t.file f ∧ t.qualified = q := by
  obtain ⟨hmem, hq⟩ := Index.mem_of_get hget
  rw [Index.types_build hnames] at hmem
  obtain ⟨ts, hts, ht⟩ := List.mem_flatten.mp hmem
  obtain ⟨i, hi, rfl⟩ := List.mem_mapIdx.mp hts
  have hfile : t.file = i := by
    rw [declaredIn_movedTo _ 0 i] at ht
    obtain ⟨u, -, rfl⟩ := List.mem_map.mp ht
    rfl
  subst hfile
  exact ⟨files[t.file], List.getElem?_eq_getElem hi, ht, hq⟩

/-- The index of the files in another order has the same types under the same names. -/
theorem get?_perm (hnames : (declaredNames files).Nodup) (hperm : files.Perm files') {q : String}
    {t : TypeInfo} (hget : (Index.build files).get? q = some t) :
    ∃ file, (Index.build files').get? q = some (t.movedTo file) ∧
      (Index.build files').files[file]? = (Index.build files).files[t.file]? := by
  obtain ⟨f, hf, ht, rfl⟩ := exists_of_get? hnames hget
  obtain ⟨j, hj⟩ := List.mem_iff_getElem?.mp (hperm.mem_iff.mp (List.mem_of_getElem? hf))
  have hmoved : t.movedTo j ∈ declaredIn j f := by
    rw [declaredIn_movedTo f t.file j]
    exact List.mem_map_of_mem ht
  refine ⟨j, get?_of_mem_declaredIn (nodup_declaredNames hnames hperm) hj hmoved, ?_⟩
  rw [Index.files_build, Index.files_build, List.getElem?_map, List.getElem?_map, hf, hj]

/-- **Files in another order have an index that is alike.** -/
theorem alike_build (hnames : (declaredNames files).Nodup) (hperm : files.Perm files') :
    (Index.build files).Alike (Index.build files') := by
  have hnames' := nodup_declaredNames hnames hperm
  have htypes := perm_declared hperm
  rw [← Index.types_build hnames, ← Index.types_build hnames'] at htypes
  constructor
  case get? =>
    intro q
    cases hget : (Index.build files).get? q with
    | some t =>
        obtain ⟨file, hget', hfile⟩ := get?_perm hnames hperm hget
        exact Or.inr ⟨t, file, rfl, hget', hfile⟩
    | none =>
        refine Or.inl ⟨rfl, Option.eq_none_iff_forall_ne_some.mpr fun t' hget' => ?_⟩
        obtain ⟨file, hback, -⟩ := get?_perm hnames' hperm.symm hget'
        rw [hget] at hback
        cases hback
  case length =>
    have hlength := htypes.length_eq
    rw [List.length_map, List.length_map] at hlength
    exact hlength.symm
  case searchBound =>
    have hsum := (htypes.map fun t => 1 + t.interfaces.length).sum_nat
    rw [List.map_map, List.map_map] at hsum
    rw [Index.searchBound, Index.searchBound, ← List.sum_eq_foldl, ← List.sum_eq_foldl]
    exact congrArg (1 + ·) hsum.symm

/-- A file has the same unit at its positions in both orders. -/
theorem unitOf_perm (hnames : (declaredNames files).Nodup) (hperm : files.Perm files') {i j : Nat}
    {f : FileSyntax} (hi : files[i]? = some f) (hj : files'[j]? = some f) :
    unitOf (Index.build files') j f = unitOf (Index.build files) i f := by
  refine (alike_build hnames hperm).unitOf ?_ f
  rw [Index.files_build, Index.files_build, List.getElem?_map, List.getElem?_map, hi, hj]

/-- The unit of a file is a function of the file, whatever its position. -/
theorem exists_unit (hnames : (declaredNames files).Nodup) :
    ∃ unit : FileSyntax → SourceUnit, ∀ files', files.Perm files' →
      units files' = files'.map unit := by
  classical
  -- A file may stand at several positions of the first order; any of them will do.
  refine ⟨fun f => if h : ∃ i, files[i]? = some f then unitOf (Index.build files) h.choose f
    else unitOf (Index.build files) 0 f, fun files' hperm => List.ext_getElem? fun j => ?_⟩
  rw [units, List.getElem?_mapIdx, List.getElem?_map]
  cases hj : files'[j]? with
  | none => rfl
  | some f =>
      have hposition : ∃ i, files[i]? = some f :=
        List.mem_iff_getElem?.mp (hperm.mem_iff.mpr (List.mem_of_getElem? hj))
      refine congrArg some (Eq.trans ?_ (dif_pos hposition).symm)
      exact unitOf_perm hnames hperm hposition.choose_spec hj

/-- **The order of files does not matter**: in files whose declared types have distinct full names
and in any other order of them, a file has the same unit at either of its positions, so that the
project has the same units. -/
theorem units_perm (hnames : (declaredNames files).Nodup) (hperm : files.Perm files') :
    (∀ i j f, files[i]? = some f → files'[j]? = some f →
      unitOf (Index.build files') j f = unitOf (Index.build files) i f) ∧
    (units files').Perm (units files) := by
  obtain ⟨unit, hunits⟩ := exists_unit hnames
  refine ⟨fun i j f hi hj => unitOf_perm hnames hperm hi hj, ?_⟩
  rw [hunits files (List.Perm.refl _), hunits files' hperm]
  exact hperm.symm.map unit

/-- A class with a method. -/
def baseFile : FileSyntax where
  path := "Base.java"
  package := some "p"
  types := [.mk { name := "Base" } [.method { name := "twin", returnType := some "Base" } []]]

/-- A class that imports the other on demand, extends it and calls its method. -/
def roundFile : FileSyntax where
  path := "Round.java"
  package := some "q"
  imports := [{ path := "p", onDemand := true }]
  types := [.mk { name := "Round", superclass := some "Base" }
    [.method { name := "copy", returnType := some "Base" } [.call .implicit "twin"]]]

theorem units_perm_swapped :
    (declaredNames [baseFile, roundFile]).Nodup ∧
      [baseFile, roundFile].Perm [roundFile, baseFile] ∧
      unitOf (Index.build [roundFile, baseFile]) 0 roundFile =
        unitOf (Index.build [baseFile, roundFile]) 1 roundFile ∧
      (units [roundFile, baseFile]).Perm (units [baseFile, roundFile]) := by
  have hnames : (declaredNames [baseFile, roundFile]).Nodup := by decide +kernel
  have hperm : [baseFile, roundFile].Perm [roundFile, baseFile] := .swap _ _ _
  obtain ⟨hunits, hproject⟩ := units_perm hnames hperm
  exact ⟨hnames, hperm, hunits 1 0 roundFile rfl rfl, hproject⟩

end Variability.Project
