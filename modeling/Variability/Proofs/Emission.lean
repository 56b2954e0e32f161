import Mathlib.Data.List.Nodup
import Mathlib.Data.List.TakeWhile
import Variability.Project.Flatten
import Variability.Proofs.Delivery
import Variability.Proofs.Reading
import Variability.Proofs.Walk

/-!
# What the units of a project say

The units of a project are outlines: forests of types, with imports in front. What sweeps get of an
outline is listed by recursion on the forest (`Forest.deliveries`), so that facts about deliveries
follow the syntax of the files.

Two such facts matter to whoever looks for the node of a type. Wherever an event names the type it
stands in, this is the innermost open type, and it was delivered before. And wherever a call names a
type of the project, it names it with the kind that it is declared with. Both need the files to be
proper, and the second needs names that are declared once (`Sweep.Coherent`).

## Main results

* `Sweep.deliveries_outlines`: what sweeps get of outlined units.
* `Project.unit_outline`: a file is flattened to the unit of an outline.
* `Project.Index.calls_invocation`: what calls are resolved to.
* `Project.coherent_units`: the units of proper files with distinct names are coherent.
-/

namespace Variability

open Sweep (Context)

/-! ### What sweeps get of a forest -/

/-- What handlers get of a forest below some open types, each event with its context. -/
def Forest.deliveries (imports : List Import) (enclosing : List TypeDecl) :
    Forest → List (Context × Event)
  | .nil => []
  | .content e rest =>
    (if Sweep.isHandled e.event then [({ imports, types := enclosing }, e.event)] else []) ++
      rest.deliveries imports enclosing
  | .type d inside rest =>
    (if d.exclusion?.isNone then
      ({ imports, types := enclosing }, .entered d) :: inside.deliveries imports (d :: enclosing)
    else []) ++ rest.deliveries imports enclosing

namespace Sweep

variable {p : Progress} {es : List Event}

theorem delivers_content (hp : p.depth = 0) (e : Content) :
    p.delivers e.event = isHandled e.event := by
  rcases e with _ | _ | (_ | _) | _
  all_goals simp [Content.event, Progress.delivers, isHandled, hp]

theorem not_delivers_content (hp : 0 < p.depth) (e : Content) : p.delivers e.event = false := by
  have hne : (p.depth == 0) = false := beq_false_of_ne (Nat.ne_of_gt hp)
  rcases e with _ | _ | (_ | _) | _
  all_goals simp [Content.event, Progress.delivers, hne]

theorem after_content (e : Content) : p.after e.event = p := by
  rcases e with _ | _ | (_ | _) | _
  all_goals rfl

/-- Inside a skipped type, nothing of a forest is delivered. -/
theorem deliveriesFrom_skipped (f : Forest) (hp : 0 < p.depth) (es : List Event) :
    deliveriesFrom p (f.events ++ es) = deliveriesFrom p es := by
  induction f generalizing p es with
  | nil => rfl
  | content e rest ih =>
      rw [Forest.events, List.cons_append, deliveriesFrom,
        if_neg (by simp [not_delivers_content hp]), after_content, ih hp]
  | type d inside rest ihinside ihrest =>
      have hentered : p.delivers (.entered d) = false := by
        simp [Progress.delivers, Nat.ne_of_gt hp]
      have hdeeper : p.after (.entered d) = { p with depth := p.depth + 1 } := if_pos hp
      have hback : ({ p with depth := p.depth + 1 } : Progress).after .exited = p := by
        simp [Progress.after]
      rw [Forest.events, List.cons_append, deliveriesFrom, if_neg (by simp [hentered]), hdeeper,
        List.append_assoc, ihinside (Nat.succ_pos _), List.cons_append, deliveriesFrom,
        if_neg (by simp [Progress.delivers]), hback, ihrest hp]

/-- Outside, what is listed is delivered, and the same types are open afterwards. -/
theorem deliveriesFrom_forest (f : Forest) (hp : p.depth = 0) (es : List Event) :
    ∃ q : Progress, q.context = p.context ∧ q.depth = 0 ∧
      deliveriesFrom p (f.events ++ es) =
        f.deliveries p.context.imports p.context.types ++ deliveriesFrom q es := by
  induction f generalizing p es with
  | nil => exact ⟨p, rfl, hp, rfl⟩
  | content e rest ih =>
      obtain ⟨q, hcontext, hdepth, heq⟩ := ih hp es
      refine ⟨q, hcontext, hdepth, ?_⟩
      rw [Forest.events, List.cons_append, deliveriesFrom, delivers_content hp, after_content, heq,
        Forest.deliveries]
      split <;> simp
  | type d inside rest ihinside ihrest =>
      cases hd : d.exclusion? with
      | some reason =>
          have hafter : p.after (.entered d) = { p with skipped := p.skipped + 1, depth := 1 } := by
            simp [Progress.after, hp, hd]
          have hback : ({ p with skipped := p.skipped + 1, depth := 1 } : Progress).after .exited =
              { p with skipped := p.skipped + 1 } := by
            simp [Progress.after, hp]
          obtain ⟨q, hcontext, hdepth, heq⟩ :=
            ihrest (p := { p with skipped := p.skipped + 1 }) hp es
          refine ⟨q, hcontext, hdepth, ?_⟩
          rw [Forest.events, List.cons_append, deliveriesFrom,
            if_neg (by simp [Progress.delivers, hd]), hafter, List.append_assoc,
            deliveriesFrom_skipped inside (Nat.succ_pos _), List.cons_append, deliveriesFrom,
            if_neg (by simp [Progress.delivers]), hback, heq, Forest.deliveries]
          simp [hd]
      | none =>
          have hafter : p.after (.entered d) = { p with
              visited := p.visited + 1
              context := { p.context with types := d :: p.context.types } } := by
            simp [Progress.after, hp, hd]
          obtain ⟨q, hcontext, hdepth, heq⟩ := ihinside (p := { p with
            visited := p.visited + 1
            context := { p.context with types := d :: p.context.types } }) hp
            (.exited :: (rest.events ++ es))
          have hback : (q.after .exited).context = p.context ∧ (q.after .exited).depth = 0 := by
            simp [Progress.after, hdepth, hcontext]
          obtain ⟨q', hcontext', hdepth', heq'⟩ := ihrest hback.2 es
          refine ⟨q', hcontext'.trans hback.1, hdepth', ?_⟩
          rw [Forest.events, List.cons_append, deliveriesFrom,
            if_pos (by simp [Progress.delivers, hp, hd]), hafter, List.append_assoc,
            List.cons_append, heq, deliveriesFrom, if_neg (by simp [Progress.delivers]), heq',
            hback.1, Forest.deliveries]
          simp [hd]

/-- Imports are collected, static ones apart. -/
theorem deliveriesFrom_imports (is : List Import) (p : Progress) (es : List Event) :
    deliveriesFrom p (is.map .importing ++ es) =
      deliveriesFrom { p with context := { p.context with
        imports := p.context.imports ++ is.filter fun i => !i.isStatic } } es := by
  induction is generalizing p with
  | nil => simp
  | cons i is ih =>
      rw [List.map_cons, List.cons_append, deliveriesFrom, if_neg (by simp [Progress.delivers]), ih]
      by_cases hi : i.isStatic = true
      · simp [Progress.after, hi]
      · simp [Progress.after, hi]

/-- **What sweeps get of outlined units.** -/
theorem deliveries_outlines (outlines : List Outline) :
    deliveries (outlines.map Outline.unit) =
      outlines.flatMap fun o => o.types.deliveries o.inForce [] := by
  rw [deliveries, List.flatMap_map]
  refine List.flatMap_congr fun o _ => ?_
  have himports := deliveriesFrom_imports o.imports {} o.types.events
  obtain ⟨q, -, -, heq⟩ := deliveriesFrom_forest o.types
    (p := { context := { imports := [] ++ o.imports.filter fun i => !i.isStatic } }) rfl []
  rw [List.append_nil] at heq
  rw [Outline.unit, himports, heq]
  simp [deliveriesFrom, Outline.inForce]

end Sweep

/-- Types that are open at a delivery were open before or delivered themselves. -/
theorem Forest.mem_deliveries_of_mem_types (f : Forest) {imports : List Import}
    {enclosing : List TypeDecl} {c : Context} {e : Event}
    (hmem : (c, e) ∈ f.deliveries imports enclosing) {d : TypeDecl} (hd : d ∈ c.types) :
    d ∈ enclosing ∨ ∃ c', (c', .entered d) ∈ f.deliveries imports enclosing := by
  induction f generalizing enclosing with
  | nil => exact absurd hmem List.not_mem_nil
  | content e' rest ih =>
      rcases List.mem_append.mp hmem with hhere | hrest
      · split at hhere
        · cases List.mem_singleton.mp hhere
          exact Or.inl hd
        · exact absurd hhere List.not_mem_nil
      · exact (ih hrest).imp id fun ⟨c', h⟩ => ⟨c', List.mem_append_right _ h⟩
  | type d' inside rest ihinside ihrest =>
      rcases List.mem_append.mp hmem with hhere | hrest
      · split at hhere
        · rename_i hvisited
          have hopen : d ∈ enclosing ∨ d = d' ∨
              ∃ c', (c', .entered d) ∈ inside.deliveries imports (d' :: enclosing) := by
            rcases List.mem_cons.mp hhere with heq | hinside
            · cases heq
              exact Or.inl hd
            · rcases ihinside hinside with hd | hd
              · exact (List.mem_cons.mp hd).elim (fun h => Or.inr (Or.inl h)) Or.inl
              · exact Or.inr (Or.inr hd)
          rw [deliveries, if_pos hvisited]
          rcases hopen with hd | rfl | ⟨c', hc'⟩
          · exact Or.inl hd
          · exact Or.inr ⟨_, List.mem_append_left _ List.mem_cons_self⟩
          · exact Or.inr ⟨c', List.mem_append_left _ (List.mem_cons_of_mem _ hc')⟩
        · exact absurd hhere List.not_mem_nil
      · exact (ihrest hrest).imp id fun ⟨c', h⟩ => ⟨c', List.mem_append_right _ h⟩

/-! ### Files as outlines -/

namespace Project

open Java (TypeHead MethodHead TypeSyntax Member Item FileSyntax)

namespace Place

mutual

/-- A type inside a chain of types, and what follows it. -/
def typeForest (p : Place) (chain : List String) : TypeSyntax → Forest → Forest
  | .mk h members, rest =>
    let d := p.declaration chain h
    .type d (memberForest p (p.chainInside chain h) d.toRef members) rest

/-- The members of a type. -/
def memberForest (p : Place) (chain : List String) (declaring : TypeRef) : List Member → Forest
  | [] => .nil
  | .field type names :: ms =>
    .content (.field { names, fieldType := p.index.resolveType? (p.scope chain) type })
      (memberForest p chain declaring ms)
  | .method h items :: ms =>
    .content (.method (p.method chain declaring h))
      (itemForest p chain (p.enclosing chain declaring h) (p.body chain h) items
        (memberForest p chain declaring ms))
  | .type t :: ms => typeForest p chain t (memberForest p chain declaring ms)

/-- A method body, and what follows it. -/
def itemForest (p : Place) (chain : List String) (method : EnclosingMethod) (b : BodyScope) :
    List Item → Forest → Forest
  | [], rest => rest
  | .call receiver name :: is, rest =>
    .content (.invocation (p.index.invocation? b receiver name))
      (itemForest p chain method b is rest)
  | .returning value :: is, rest =>
    .content
      (.returning { enclosing := some method, expression := value.bind (p.index.exprType? b) })
      (itemForest p chain method b is rest)
  | .anonymous t :: is, rest => typeForest p chain t (itemForest p chain method b is rest)

end

mutual

theorem events_typeForest (p : Place) (chain : List String) (t : TypeSyntax) (rest : Forest) :
    (p.typeForest chain t rest).events = p.typeEvents chain t ++ rest.events := by
  match t with
  | .mk h members =>
      have hmembers := events_memberForest p (p.chainInside chain h)
        (p.declaration chain h).toRef members
      simp [typeForest, typeEvents, Forest.events, hmembers]

theorem events_memberForest (p : Place) (chain : List String) (declaring : TypeRef)
    (ms : List Member) :
    (p.memberForest chain declaring ms).events = p.memberEvents chain declaring ms := by
  match ms with
  | [] => rfl
  | .field type names :: ms =>
      simp [memberForest, memberEvents, Forest.events, Content.event,
        events_memberForest p chain declaring ms]
  | .method h items :: ms =>
      simp [memberForest, memberEvents, Forest.events, Content.event,
        events_memberForest p chain declaring ms, events_itemForest p chain _ _ items]
  | .type t :: ms =>
      simp [memberForest, memberEvents, events_typeForest p chain t,
        events_memberForest p chain declaring ms]

theorem events_itemForest (p : Place) (chain : List String) (method : EnclosingMethod)
    (b : BodyScope) (is : List Item) (rest : Forest) :
    (p.itemForest chain method b is rest).events =
      p.itemEvents chain method b is ++ rest.events := by
  match is with
  | [] => rfl
  | .call receiver name :: is =>
      simp [itemForest, itemEvents, Forest.events, Content.event,
        events_itemForest p chain method b is rest]
  | .returning value :: is =>
      simp [itemForest, itemEvents, Forest.events, Content.event,
        events_itemForest p chain method b is rest]
  | .anonymous t :: is =>
      simp [itemForest, itemEvents, events_typeForest p chain t,
        events_itemForest p chain method b is rest]

end

end Place

/-- A file as an outline; `file` is its position among the indexed files. -/
def outline (ix : Index) (file : Nat) (f : FileSyntax) : Outline :=
  let p : Place := { index := ix, file, package := f.package }
  { path := f.path
    package := f.package
    imports := f.imports
    types := f.types.foldr (p.typeForest []) .nil }

/-- **A file is flattened to the unit of an outline.** -/
theorem unit_outline (ix : Index) (file : Nat) (f : FileSyntax) :
    (outline ix file f).unit = unitOf ix file f := by
  have hevents : ∀ (p : Place) (ts : List TypeSyntax),
      (ts.foldr (p.typeForest []) .nil).events = ts.flatMap (p.typeEvents []) := by
    intro p ts
    induction ts with
    | nil => rfl
    | cons t ts ih =>
        rw [List.foldr_cons, Place.events_typeForest, ih, List.flatMap_cons]
  simp [outline, Outline.unit, unitOf, hevents]

/-! ### Events and the types they stand in -/

/-- What an event of a project says about its place: a member and a return statement name the
innermost open type, and a call is one that was looked up. -/
def Placed (ix : Index) (c : Context) : Event → Prop
  | .method m => ∃ d, c.current? = some d ∧ m.declaring = some d.toRef
  | .returning s => ∃ d m, c.current? = some d ∧ s.enclosing = some m ∧ m.declaring = some d.toRef
  | .invocation i => ∃ b receiver name, i = ix.invocation? b receiver name
  | _ => True

/-- A piece of content that is placed, before others that are. -/
theorem placed_content {ix : Index} {imports : List Import} {enclosing : List TypeDecl}
    {e : Content} {rest : Forest} (he : Placed ix { imports, types := enclosing } e.event)
    (hrest : ∀ x ∈ rest.deliveries imports enclosing, Placed ix x.1 x.2) :
    ∀ x ∈ (Forest.content e rest).deliveries imports enclosing, Placed ix x.1 x.2 := by
  intro x hx
  rcases List.mem_append.mp hx with hx | hx
  · split at hx
    · cases List.mem_singleton.mp hx
      exact he
    · exact absurd hx List.not_mem_nil
  · exact hrest x hx

mutual

theorem placed_typeForest (p : Place) (chain : List String) (t : TypeSyntax) {rest : Forest}
    {imports : List Import} {enclosing : List TypeDecl}
    (hrest : ∀ x ∈ rest.deliveries imports enclosing, Placed p.index x.1 x.2) :
    ∀ x ∈ (p.typeForest chain t rest).deliveries imports enclosing, Placed p.index x.1 x.2 := by
  intro x hx
  match t with
  | .mk h members =>
      rcases List.mem_append.mp hx with hx | hx
      · split at hx
        · rcases List.mem_cons.mp hx with rfl | hx
          · exact trivial
          · exact placed_memberForest p (p.chainInside chain h) (p.declaration chain h) members x hx
        · exact absurd hx List.not_mem_nil
      · exact hrest x hx

theorem placed_memberForest (p : Place) (chain : List String) (d : TypeDecl) (ms : List Member)
    {imports : List Import} {enclosing : List TypeDecl} :
    ∀ x ∈ (p.memberForest chain d.toRef ms).deliveries imports (d :: enclosing),
      Placed p.index x.1 x.2 := by
  match ms with
  | [] => exact fun x hx => absurd hx List.not_mem_nil
  | .field type names :: ms => exact placed_content trivial (placed_memberForest p chain d ms)
  | .method h items :: ms =>
      exact placed_content ⟨d, rfl, rfl⟩
        (placed_itemForest p chain d rfl items (placed_memberForest p chain d ms))
  | .type t :: ms => exact placed_typeForest p chain t (placed_memberForest p chain d ms)

theorem placed_itemForest (p : Place) (chain : List String) (d : TypeDecl)
    {method : EnclosingMethod} (hmethod : method.declaring = some d.toRef) {b : BodyScope}
    (is : List Item) {rest : Forest} {imports : List Import} {enclosing : List TypeDecl}
    (hrest : ∀ x ∈ rest.deliveries imports (d :: enclosing), Placed p.index x.1 x.2) :
    ∀ x ∈ (p.itemForest chain method b is rest).deliveries imports (d :: enclosing),
      Placed p.index x.1 x.2 := by
  match is with
  | [] => exact hrest
  | .call receiver name :: is =>
      exact placed_content ⟨b, receiver, name, rfl⟩ (placed_itemForest p chain d hmethod is hrest)
  | .returning value :: is =>
      exact placed_content ⟨d, method, rfl, rfl, hmethod⟩
        (placed_itemForest p chain d hmethod is hrest)
  | .anonymous t :: is =>
      exact placed_typeForest p chain t (placed_itemForest p chain d hmethod is hrest)

end

/-! ### Visited types are declared once -/

/-- The declarations that are entered in some deliveries, by name and kind. -/
def enteredKeys (ds : List (Context × Event)) : List (String × TypeKind) :=
  ds.filterMap fun
    | (_, .entered d) => some (d.qualified, d.kind)
    | _ => none

/-- Types of the index, by name and kind. -/
def declaredKeys (ts : List TypeInfo) : List (String × TypeKind) :=
  ts.map fun t => (t.qualified, t.kind)

theorem enteredKeys_append (ds es : List (Context × Event)) :
    enteredKeys (ds ++ es) = enteredKeys ds ++ enteredKeys es := List.filterMap_append

theorem declaredKeys_append (ts us : List TypeInfo) :
    declaredKeys (ts ++ us) = declaredKeys ts ++ declaredKeys us := List.map_append

/-- Content enters no type. -/
theorem enteredKeys_content (e : Content) (rest : Forest) (imports : List Import)
    (enclosing : List TypeDecl) :
    enteredKeys ((Forest.content e rest).deliveries imports enclosing) =
      enteredKeys (rest.deliveries imports enclosing) := by
  rw [Forest.deliveries, enteredKeys_append]
  rcases e with _ | _ | (_ | _) | _
  all_goals rfl

/-- Anonymous classes are not entered. -/
theorem exclusion_of_isAnonymous {d : TypeDecl} (hd : d.isAnonymous = true) :
    d.exclusion?.isNone = false := by
  unfold TypeDecl.exclusion?
  rw [if_pos hd]
  split
  · rfl
  · split
    · rfl
    · split
      · rfl
      · rfl

/-- Nothing is entered in a proper method body. -/
theorem enteredKeys_itemForest (p : Place) (chain : List String) (method : EnclosingMethod)
    (b : BodyScope) {is : List Item} (his : ∀ i ∈ is, i.IsProper) (rest : Forest)
    (imports : List Import) (enclosing : List TypeDecl) :
    enteredKeys ((p.itemForest chain method b is rest).deliveries imports enclosing) =
      enteredKeys (rest.deliveries imports enclosing) := by
  induction is with
  | nil => rfl
  | cons i is ih =>
      have ih := ih fun j hj => his j (List.mem_cons_of_mem _ hj)
      cases i with
      | call receiver name =>
          rw [Place.itemForest, enteredKeys_content]
          exact ih
      | returning value =>
          rw [Place.itemForest, enteredKeys_content]
          exact ih
      | anonymous t =>
          obtain ⟨h, members⟩ := t
          have hanonymous : h.isAnonymous = true := his _ List.mem_cons_self
          have hskipped : (p.declaration chain h).exclusion?.isNone = false :=
            exclusion_of_isAnonymous hanonymous
          rw [Place.itemForest, Place.typeForest, Forest.deliveries, hskipped]
          exact ih

mutual

/-- A proper type is entered at most once, under the name it is declared with, and so are its member
types. -/
theorem count_typeForest (p : Place) {chain : List String} {t : TypeSyntax} (ht : t.IsProper)
    (outer : Option String) {qualified : String} (hname : p.nameOf chain t.head = qualified)
    (rest : Forest) (imports : List Import) (enclosing : List TypeDecl) (k : String × TypeKind) :
    (enteredKeys ((p.typeForest chain t rest).deliveries imports enclosing)).count k ≤
      (declaredKeys (declared p.file outer qualified t)).count k +
        (enteredKeys (rest.deliveries imports enclosing)).count k := by
  match t, ht with
  | .mk h members, .mk hnamed hmembers =>
      have hqualified : p.nameOf chain h = qualified := hname
      have hchain : (p.chainInside chain h).getLast? = some qualified := by
        rw [Place.chainInside, if_neg (by simp [hnamed]), List.getLast?_concat, hqualified]
      have hinside := count_memberForest p hmembers hchain (p.declaration chain h).toRef imports
        (p.declaration chain h :: enclosing) k
      rw [Place.typeForest, Forest.deliveries, enteredKeys_append, List.count_append, declared,
        declaredKeys_append, List.count_append]
      refine Nat.add_le_add_right ?_ _
      split
      · have hcons : enteredKeys
            (({ imports, types := enclosing }, .entered (p.declaration chain h)) ::
              (p.memberForest (p.chainInside chain h) (p.declaration chain h).toRef
              members).deliveries imports (p.declaration chain h :: enclosing)) =
            (qualified, h.kind) :: enteredKeys ((p.memberForest (p.chainInside chain h)
              (p.declaration chain h).toRef members).deliveries imports
                (p.declaration chain h :: enclosing)) := by
          rw [← hqualified]
          rfl
        have hself : declaredKeys [infoOf p.file outer qualified (.mk h members)] =
            [(qualified, h.kind)] := rfl
        rw [hcons, hself, List.count_cons, List.count_singleton]
        omega
      · exact Nat.zero_le _

theorem count_memberForest (p : Place) {chain : List String} {ms : List Member}
    (hms : ∀ m ∈ ms, m.IsProper) {outer : String} (hchain : chain.getLast? = some outer)
    (declaring : TypeRef) (imports : List Import) (enclosing : List TypeDecl)
    (k : String × TypeKind) :
    (enteredKeys ((p.memberForest chain declaring ms).deliveries imports enclosing)).count k ≤
      (declaredKeys (declaredMembers p.file outer ms)).count k := by
  match ms, hms with
  | [], _ => exact Nat.le_refl _
  | .field type names :: ms, hms =>
      rw [Place.memberForest, enteredKeys_content, declaredMembers]
      exact count_memberForest p (fun m hm => hms m (List.mem_cons_of_mem _ hm)) hchain declaring
        imports enclosing k
  | .method h items :: ms, hms =>
      have hbody : ∀ i ∈ items, i.IsProper := by
        cases hms _ List.mem_cons_self with
        | method _ hbody => exact hbody
      rw [Place.memberForest, enteredKeys_content, enteredKeys_itemForest p chain _ _ hbody,
        declaredMembers]
      exact count_memberForest p (fun m hm => hms m (List.mem_cons_of_mem _ hm)) hchain declaring
        imports enclosing k
  | .type t :: ms, hms =>
      have ht : t.IsProper := by
        cases hms _ List.mem_cons_self with
        | type ht => exact ht
      have hrest := count_memberForest p (fun m hm => hms m (List.mem_cons_of_mem _ hm)) hchain
        declaring imports enclosing k
      have hname : p.nameOf chain t.head = Name.child outer t.head.name := by
        rw [Place.nameOf, if_neg (by simp [ht.isAnonymous]), hchain]
      have htype := count_typeForest p ht (some outer) hname
        (p.memberForest chain declaring ms) imports enclosing k
      rw [Place.memberForest, declaredMembers, declaredKeys_append, List.count_append]
      omega

end

/-! ### The index -/

namespace Index

variable {ix : Index}

theorem mem_of_get {q : String} {t : TypeInfo} (h : ix.get? q = some t) :
    t ∈ ix.types ∧ t.qualified = q :=
  ⟨List.mem_of_find?_eq_some h,
    eq_of_beq (List.find?_some (p := fun t : TypeInfo => t.qualified == q) h)⟩

/-- With distinct names, each type is found under its name. -/
theorem get_of_mem (h : (ix.types.map (·.qualified)).Nodup) {t : TypeInfo} (ht : t ∈ ix.types) :
    ix.get? t.qualified = some t := by
  cases hget : ix.get? t.qualified with
  | some u =>
      obtain ⟨hu, heq⟩ := mem_of_get hget
      rw [List.inj_on_of_nodup_map h hu ht heq]
  | none => exact absurd (beq_self_eq_true _) (List.find?_eq_none.mp hget t ht)

/-- Adding types of new names keeps them all, in order. -/
theorem types_foldl_insert {ts : List TypeInfo}
    (h : ((ix.types ++ ts).map (·.qualified)).Nodup) :
    (ts.foldl insert ix).types = ix.types ++ ts := by
  induction ts generalizing ix with
  | nil => exact (List.append_nil _).symm
  | cons t ts ih =>
      have hnew : ∀ t' ∈ ix.types, (t'.qualified != t.qualified) = true := by
        intro t' ht'
        rw [List.map_append, List.nodup_append] at h
        have hne := h.2.2 t'.qualified (List.mem_map_of_mem ht') t.qualified
          (List.mem_map_of_mem List.mem_cons_self)
        exact bne_iff_ne.mpr hne
      have hinsert : (ix.insert t).types = ix.types ++ [t] := by
        rw [insert, List.filter_eq_self.mpr hnew]
      rw [List.foldl_cons, ih, hinsert, List.append_assoc, List.singleton_append]
      rwa [hinsert, List.append_assoc, List.singleton_append]

/-- With distinct names, the index has all declared types. -/
theorem types_build {files : List FileSyntax}
    (h : ((files.mapIdx declaredIn).flatten.map (·.qualified)).Nodup) :
    (build files).types = (files.mapIdx declaredIn).flatten := by
  rw [build, types_foldl_insert]
  · rfl
  · exact h

/-- What a search finds is the answer of a type of the index. -/
theorem exists_of_search {α : Type} {hit : TypeInfo → Option α} {fuel : Nat}
    {queue visited : List String} {a : α} (h : ix.search hit fuel queue visited = some a) :
    ∃ t, ix.get? t.qualified = some t ∧ hit t = some a := by
  induction fuel generalizing queue visited with
  | zero => cases h
  | succ fuel ih =>
      cases queue with
      | nil => cases h
      | cons q queue =>
          rw [search] at h
          split at h
          · exact ih h
          · split at h
            · exact ih h
            · rename_i t hget
              split at h
              · rename_i hhit
                exact ⟨t, (mem_of_get hget).2.symm ▸ hget, hhit.trans h⟩
              · exact ih h

/-- What a call of a method is resolved to: a type of the project that declares a method of the name,
by its reference in the index and with its first such method, or a type that is not of the project,
by its erased name. -/
inductive Calls (ix : Index) (method : String) : Invocation → Prop
  | project {t : TypeInfo} {m : MethodInfo} (hget : ix.get? t.qualified = some t)
      (hm : t.methods.find? (·.name == method) = some m) :
      Calls ix method
        { method, declaring := ix.typeRef t.qualified, isAbstract := m.isAbstract }
  | external {r : TypeRef} (hr : ix.contains r.erasure = false) :
      Calls ix method { method, declaring := { r with qualified := r.erasure } }

theorem calls_projectCall {method owner : String} {i : Invocation}
    (h : ix.projectCall? method owner = some i) : ix.Calls method i := by
  obtain ⟨⟨t, m⟩, hfound, rfl⟩ := Option.map_eq_some_iff.mp h
  obtain ⟨t', hget, hhit⟩ := exists_of_search hfound
  obtain ⟨m', hm, heq⟩ := Option.map_eq_some_iff.mp hhit
  cases heq
  exact .project hget hm

theorem calls_callOn {method : String} {r : TypeRef} {i : Invocation}
    (h : ix.callOn? method r = some i) : ix.Calls method i := by
  rw [callOn?] at h
  cases hproject : ix.projectCall? method r.erasure with
  | some j =>
      rw [hproject] at h
      exact calls_projectCall (hproject.trans h)
  | none =>
      rw [hproject] at h
      have h : ix.externalCall? method r = some i := h
      unfold externalCall? at h
      split at h
      · cases h
      · rename_i hcontains
        cases h
        exact .external (Bool.eq_false_iff.mpr hcontains)

theorem calls_callOnValue {method : String} {o : Option TypeRef} {i : Invocation}
    (h : ix.callOnValue? method o = some i) : ix.Calls method i := by
  obtain ⟨r, -, h⟩ := Option.bind_eq_some_iff.mp h
  split at h
  · cases h
  · exact calls_callOn h

/-- **What calls are resolved to.** -/
theorem calls_invocation {b : BodyScope} {receiver : Java.Receiver} {method : String}
    {i : Invocation} (h : ix.invocation? b receiver method = some i) : ix.Calls method i := by
  rw [invocation?.eq_def] at h
  split at h
  · obtain ⟨q, -, h⟩ := List.exists_of_findSome?_eq_some h
    exact calls_projectCall h
  · obtain ⟨q, -, h⟩ := Option.bind_eq_some_iff.mp h
    exact calls_projectCall h
  · obtain ⟨r, -, h⟩ := Option.bind_eq_some_iff.mp h
    exact calls_callOn h
  · exact calls_callOnValue h
  · exact calls_callOnValue h

/-- The declaring types of calls: types of the project, by their references in the index, and types
that are not of the project, by their erased names. -/
def Resolved (ix : Index) (i : Invocation) : Prop :=
  (∃ t ∈ ix.types, i.declaring = ix.typeRef t.qualified) ∨
    ∃ r : TypeRef, ix.contains r.erasure = false ∧
      i.declaring = { r with qualified := r.erasure }

theorem resolved_invocation {b : BodyScope} {receiver : Java.Receiver} {method : String}
    {i : Invocation} (h : ix.invocation? b receiver method = some i) : ix.Resolved i := by
  cases calls_invocation h with
  | project hget _ => exact Or.inl ⟨_, (mem_of_get hget).1, rfl⟩
  | external hr => exact Or.inr ⟨_, hr, rfl⟩

end Index

/-! ### Coherent units -/

end Project

/-- A name is what erasure leaves of another of the names. -/
def Name.IsAliased (names : List String) (name : String) : Prop :=
  ∃ q ∈ names, Name.erasure q = name ∧ q ≠ name

/-- Units that agree on the types of a project, whose names are given. Each type is visited once,
events name the types that they stand in, and calls name visited types by their kinds, unless one
name is taken for another because it looks as if it had generic arguments. -/
structure Sweep.Coherent (units : List SourceUnit) (names : List String) : Prop where
  nodup : ((visited units).map (·.2.qualified)).Nodup
  known : ∀ c d, (c, d) ∈ visited units → d.qualified ∈ names
  current : ∀ c e d, (c, e) ∈ deliveries units → c.current? = some d →
    ∃ c', (c', d) ∈ visited units
  method : ∀ c m r, (c, .method m) ∈ deliveries units → m.declaring = some r →
    ∃ c' d, (c', d) ∈ visited units ∧ r = d.toRef
  returning : ∀ c s m r, (c, .returning s) ∈ deliveries units → s.enclosing = some m →
    m.declaring = some r → ∃ c' d, (c', d) ∈ visited units ∧ r = d.toRef
  invocation : ∀ c i, (c, .invocation (some i)) ∈ deliveries units → ∀ c' d,
    (c', d) ∈ visited units → i.declaring.erasure = d.qualified →
    i.declaring.nodeKind = d.toRef.nodeKind ∨ Name.IsAliased names d.qualified

namespace Project

open Java (TypeSyntax FileSyntax)

variable {files : List FileSyntax}

/-- The files of some sources, each given by its path and its text. -/
def readAll (sources : List (String × String)) : List FileSyntax :=
  sources.map fun s => .read s.1 s.2

theorem isProper_of_mem_readAll {sources : List (String × String)} :
    ∀ f ∈ readAll sources, f.IsProper := by
  intro f hf
  obtain ⟨s, -, rfl⟩ := List.mem_map.mp hf
  exact FileSyntax.isProper_read _ _

/-- The full names of all declared types of some files. -/
def declaredNames (files : List FileSyntax) : List String :=
  (files.mapIdx declaredIn).flatten.map (·.qualified)

/-- What sweeps get of the units of a project. -/
theorem deliveries_units (files : List FileSyntax) :
    Sweep.deliveries (units files) = files.zipIdx.flatMap fun x =>
      (outline (Index.build files) x.2 x.1).types.deliveries
        (outline (Index.build files) x.2 x.1).inForce [] := by
  have hunits : units files =
      (files.zipIdx.map fun x => outline (Index.build files) x.2 x.1).map Outline.unit := by
    rw [units, List.mapIdx_eq_zipIdx_map, List.map_map]
    exact List.map_congr_left fun x _ => (unit_outline _ _ _).symm
  rw [hunits, Sweep.deliveries_outlines, List.flatMap_map]

/-- Every event of a project is placed. -/
theorem placed_of_mem_deliveries {c : Context} {e : Event}
    (hmem : (c, e) ∈ Sweep.deliveries (units files)) : Placed (Index.build files) c e := by
  rw [deliveries_units] at hmem
  obtain ⟨⟨f, n⟩, -, hmem⟩ := List.mem_flatMap.mp hmem
  have hplaced : ∀ (p : Place) (ts : List TypeSyntax) (imports : List Import),
      ∀ x ∈ (ts.foldr (p.typeForest []) .nil).deliveries imports [], Placed p.index x.1 x.2 := by
    intro p ts imports
    induction ts with
    | nil => exact fun x hx => absurd hx List.not_mem_nil
    | cons t ts ih => exact placed_typeForest p [] t ih
  exact hplaced _ f.types _ (c, e) hmem

/-- The innermost open type at a delivery was delivered itself. -/
theorem visited_of_current {c : Context} {e : Event}
    (hmem : (c, e) ∈ Sweep.deliveries (units files)) {d : TypeDecl} (hd : c.current? = some d) :
    ∃ c', (c', d) ∈ Sweep.visited (units files) := by
  simp only [Sweep.mem_visited]
  rw [deliveries_units] at hmem ⊢
  obtain ⟨x, hx, hmem⟩ := List.mem_flatMap.mp hmem
  rcases Forest.mem_deliveries_of_mem_types _ hmem (List.mem_of_mem_head? hd) with hd | ⟨c', hc'⟩
  · exact absurd hd List.not_mem_nil
  · exact ⟨c', List.mem_flatMap.mpr ⟨x, hx, hc'⟩⟩

/-- Types are entered at most as often as they are declared. -/
theorem count_deliveries (hfiles : ∀ f ∈ files, f.IsProper) (k : String × TypeKind) :
    (enteredKeys (Sweep.deliveries (units files))).count k ≤
      (declaredKeys (files.mapIdx declaredIn).flatten).count k := by
  have hforest : ∀ (p : Place) (ts : List TypeSyntax) (imports : List Import),
      (∀ t ∈ ts, t.IsProper) →
      (enteredKeys ((ts.foldr (p.typeForest []) .nil).deliveries imports [])).count k ≤
        (declaredKeys (ts.flatMap fun t =>
          declared p.file none (Name.qualify p.package t.head.name) t)).count k := by
    intro p ts imports hts
    induction ts with
    | nil => exact Nat.le_refl _
    | cons t ts ih =>
        have ih := ih fun u hu => hts u (List.mem_cons_of_mem _ hu)
        have ht := hts t List.mem_cons_self
        have hname : p.nameOf [] t.head = Name.qualify p.package t.head.name := by
          rw [Place.nameOf, if_neg (by simp [ht.isAnonymous])]
          rfl
        have hcount := count_typeForest p ht none hname
          (ts.foldr (p.typeForest []) .nil) imports [] k
        rw [List.flatMap_cons, declaredKeys_append, List.count_append, List.foldr_cons]
        omega
  have hfile : ∀ xs : List (FileSyntax × Nat), (∀ x ∈ xs, x.1.IsProper) →
      (enteredKeys (xs.flatMap fun x => (outline (Index.build files) x.2 x.1).types.deliveries
        (outline (Index.build files) x.2 x.1).inForce [])).count k ≤
      (declaredKeys (xs.flatMap fun x => declaredIn x.2 x.1)).count k := by
    intro xs hxs
    induction xs with
    | nil => exact Nat.le_refl _
    | cons x xs ih =>
        have ih := ih fun y hy => hxs y (List.mem_cons_of_mem _ hy)
        have hx := hforest { index := Index.build files, file := x.2, package := x.1.package }
          x.1.types (outline (Index.build files) x.2 x.1).inForce (hxs x List.mem_cons_self)
        rw [List.flatMap_cons, List.flatMap_cons, enteredKeys_append, declaredKeys_append,
          List.count_append, List.count_append]
        exact Nat.add_le_add hx ih
  rw [deliveries_units, List.mapIdx_eq_zipIdx_map, ← List.flatMap_def]
  refine hfile files.zipIdx fun x hx => hfiles x.1 ?_
  exact List.fst_mem_of_mem_zipIdx hx

theorem enteredKeys_deliveries (us : List SourceUnit) :
    enteredKeys (Sweep.deliveries us) =
      (Sweep.visited us).map fun x => (x.2.qualified, x.2.kind) := by
  rw [Sweep.visited, List.map_filterMap, enteredKeys]
  refine List.filterMap_congr ?_
  rintro ⟨c, e⟩ -
  cases e <;> rfl

/-- A visited type is in the index, with its kind. -/
theorem exists_declared_of_visited (hfiles : ∀ f ∈ files, f.IsProper) {c : Context} {d : TypeDecl}
    (hmem : (c, d) ∈ Sweep.visited (units files)) :
    ∃ t ∈ (files.mapIdx declaredIn).flatten, t.qualified = d.qualified ∧ t.kind = d.kind := by
  have hkey : (d.qualified, d.kind) ∈ enteredKeys (Sweep.deliveries (units files)) := by
    rw [enteredKeys_deliveries]
    exact List.mem_map.mpr ⟨(c, d), hmem, rfl⟩
  have hcount := Nat.lt_of_lt_of_le (List.count_pos_iff.mpr hkey) (count_deliveries hfiles _)
  obtain ⟨t, ht, heq⟩ := List.mem_map.mp (List.count_pos_iff.mp hcount)
  exact ⟨t, ht, congrArg Prod.fst heq, congrArg Prod.snd heq⟩

/-- Types are visited once, if they are declared once. -/
theorem nodup_visited (hfiles : ∀ f ∈ files, f.IsProper) (hnames : (declaredNames files).Nodup) :
    ((Sweep.visited (units files)).map (·.2.qualified)).Nodup := by
  have hfst : (declaredKeys (files.mapIdx declaredIn).flatten).map Prod.fst =
      declaredNames files := by
    rw [declaredKeys, List.map_map]
    rfl
  have hdeclared : (declaredKeys (files.mapIdx declaredIn).flatten).Nodup :=
    List.Nodup.of_map Prod.fst (hfst ▸ hnames)
  have hentered : (enteredKeys (Sweep.deliveries (units files))).Nodup :=
    List.nodup_iff_count_le_one.mpr fun k =>
      Nat.le_trans (count_deliveries hfiles k) (List.nodup_iff_count_le_one.mp hdeclared k)
  have hsubset : ∀ k ∈ enteredKeys (Sweep.deliveries (units files)),
      k ∈ declaredKeys (files.mapIdx declaredIn).flatten := fun k hk =>
    List.count_pos_iff.mp (Nat.lt_of_lt_of_le (List.count_pos_iff.mpr hk)
      (count_deliveries hfiles k))
  have hnodup : ((enteredKeys (Sweep.deliveries (units files))).map Prod.fst).Nodup :=
    hentered.map_on fun k hk l hl heq =>
      List.inj_on_of_nodup_map (hfst ▸ hnames) (hsubset k hk) (hsubset l hl) heq
  rwa [enteredKeys_deliveries, List.map_map] at hnodup

theorem erasure_erasure (name : String) : Name.erasure (Name.erasure name) = Name.erasure name := by
  simp [Name.erasure, List.takeWhile_idem]

/-- A call names a visited type by its kind. -/
theorem nodeKind_of_resolved (hfiles : ∀ f ∈ files, f.IsProper)
    (hnames : (declaredNames files).Nodup) {i : Invocation} (hi : (Index.build files).Resolved i)
    {c : Context} {d : TypeDecl} (hd : (c, d) ∈ Sweep.visited (units files))
    (heq : i.declaring.erasure = d.qualified) :
    i.declaring.nodeKind = d.toRef.nodeKind ∨ Name.IsAliased (declaredNames files) d.qualified := by
  have htypes := Index.types_build hnames
  have hnodup : ((Index.build files).types.map (·.qualified)).Nodup := htypes ▸ hnames
  obtain ⟨t, ht, hqualified, hkind⟩ := exists_declared_of_visited hfiles hd
  rw [← htypes] at ht
  rcases hi with ⟨u, hu, hdeclaring⟩ | ⟨r, hcontains, hdeclaring⟩
  · rw [Index.typeRef, Index.get_of_mem hnodup hu] at hdeclaring
    by_cases hsame : u.qualified = d.qualified
    · obtain rfl : u = t := List.inj_on_of_nodup_map hnodup hu ht (hsame.trans hqualified.symm)
      have hinterface : i.declaring.isInterface = d.toRef.isInterface := by
        rw [hdeclaring]
        exact congrArg (· == TypeKind.interfaceKind) hkind
      rw [TypeRef.nodeKind, TypeRef.nodeKind, hinterface]
      exact Or.inl rfl
    · rw [hdeclaring] at heq
      exact Or.inr ⟨u.qualified, List.mem_map_of_mem (htypes ▸ hu), heq, hsame⟩
  · -- The name of a visited type is in the index.
    rw [hdeclaring, TypeRef.erasure, TypeRef.erasure, erasure_erasure] at heq
    have hget := Index.get_of_mem hnodup ht
    rw [Index.contains, TypeRef.erasure, heq, ← hqualified, hget] at hcontains
    cases hcontains

/-- **The units of proper files with distinct names are coherent.** -/
theorem coherent_units (hfiles : ∀ f ∈ files, f.IsProper) (hnames : (declaredNames files).Nodup) :
    Sweep.Coherent (units files) (declaredNames files) where
  nodup := nodup_visited hfiles hnames
  known c d hd := by
    obtain ⟨t, ht, hqualified, -⟩ := exists_declared_of_visited hfiles hd
    exact hqualified ▸ List.mem_map_of_mem ht
  current c e d hmem hd := visited_of_current hmem hd
  method c m r hmem hr := by
    obtain ⟨d, hd, hdeclaring⟩ := placed_of_mem_deliveries hmem
    obtain ⟨c', hc'⟩ := visited_of_current hmem hd
    exact ⟨c', d, hc', Option.some.inj (hr.symm.trans hdeclaring)⟩
  returning c s m r hmem hm hr := by
    obtain ⟨d, m', hd, hm', hdeclaring⟩ := placed_of_mem_deliveries hmem
    obtain ⟨c', hc'⟩ := visited_of_current hmem hd
    obtain rfl : m' = m := Option.some.inj (hm'.symm.trans hm)
    exact ⟨c', d, hc', Option.some.inj (hr.symm.trans hdeclaring)⟩
  invocation c i hmem c' d hd heq := by
    obtain ⟨b, receiver, name, hi⟩ := placed_of_mem_deliveries hmem
    exact nodeKind_of_resolved hfiles hnames (Index.resolved_invocation hi.symm) hd heq

end Project

end Variability
