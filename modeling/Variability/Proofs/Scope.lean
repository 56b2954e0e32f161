import Variability.Proofs.Representation

/-!
# What is in scope

Sweeps give nodes to types in many places: to declared types, to the owners of members and fields,
to supertypes, to the types that calls go to and to those that methods return from. Some of these
nodes are put out of scope and others are not, under names that come from declarations, references
or imports. This module shows that the names in scope are those of the declarations that sweeps go
into, which are the ones that are not excluded and not inside of an excluded one (`Forest.Visits`).

Two facts carry this. Where a type gets a node in scope without being declared there, it is the one
that the event stands in. And sweeps have gone into the type that an event stands in, since they get
nothing that stands in a type they go past.

## Main results

* `Project.visits_iff_mem_heard`: which declarations of a project sweeps go into.
* `Analysis.MayAct.visits`: a node in scope is made for a declaration that sweeps go into.
* `Analysis.run_scope`: the names in scope after an analysis of any files.
-/

namespace Variability

open Session
open Sweep (Context)

/-! ### Declarations that are visited -/

/-- A declaration of a forest is not excluded, and neither is any that it stands in. -/
inductive Forest.Visits : Forest → TypeDecl → Prop
  | here {d : TypeDecl} {inside rest : Forest} (hd : d.exclusion? = none) :
      Visits (.type d inside rest) d
  | inside {d d' : TypeDecl} {inside rest : Forest} (hd : d.exclusion? = none)
      (h : Visits inside d') : Visits (.type d inside rest) d'
  | afterType {d d' : TypeDecl} {inside rest : Forest} (h : Visits rest d') :
      Visits (.type d inside rest) d'
  | afterContent {e : Content} {d' : TypeDecl} {rest : Forest} (h : Visits rest d') :
      Visits (.content e rest) d'

/-- Sweeps get the declarations that are visited, and no others. -/
theorem Forest.visits_iff (f : Forest) (imports : List Import) (enclosing : List TypeDecl)
    (d : TypeDecl) :
    f.Visits d ↔ ∃ c, (c, .entered d) ∈ f.deliveries imports enclosing := by
  induction f generalizing enclosing with
  | nil =>
      constructor
      · intro h
        cases h
      · rintro ⟨c, hmem⟩
        exact absurd hmem List.not_mem_nil
  | content e rest ih =>
      have hcontent : ∀ c, (c, .entered d) ∈ (Forest.content e rest).deliveries imports enclosing ↔
          (c, .entered d) ∈ rest.deliveries imports enclosing := by
        intro c
        rcases e with _ | _ | (_ | _) | _
        all_goals simp [deliveries, Content.event, Sweep.isHandled]
      simp only [hcontent, ← ih]
      constructor
      · rintro ⟨⟩
        assumption
      · exact Visits.afterContent
  | type d' inside rest ihinside ihrest =>
      rw [deliveries]
      constructor
      · intro h
        cases h with
        | here hd =>
            refine ⟨{ imports, types := enclosing }, List.mem_append_left _ ?_⟩
            rw [hd]
            exact List.mem_cons_self
        | inside hd h =>
            obtain ⟨c, hmem⟩ := (ihinside (d' :: enclosing)).mp h
            refine ⟨c, List.mem_append_left _ ?_⟩
            rw [hd]
            exact List.mem_cons_of_mem _ hmem
        | afterType h =>
            obtain ⟨c, hmem⟩ := (ihrest enclosing).mp h
            exact ⟨c, List.mem_append_right _ hmem⟩
      · rintro ⟨c, hmem⟩
        rcases List.mem_append.mp hmem with hhere | hrest
        · split at hhere
          · rename_i hnone
            have hd : d'.exclusion? = none := Option.isNone_iff_eq_none.mp hnone
            rcases List.mem_cons.mp hhere with heq | hinside
            · cases heq
              exact .here hd
            · exact .inside hd ((ihinside _).mpr ⟨c, hinside⟩)
          · exact absurd hhere List.not_mem_nil
        · exact .afterType ((ihrest enclosing).mpr ⟨c, hrest⟩)

namespace Project

open Java (FileSyntax)

variable {files : List FileSyntax} {c : Context} {d : TypeDecl}

/-- A declaration of some files is not excluded, and neither is any that it stands in. -/
def Visits (files : List FileSyntax) (d : TypeDecl) : Prop :=
  ∃ x ∈ files.zipIdx, (outline (Index.build files) x.2 x.1).types.Visits d

/-- **Sweeps go into the declarations that are not excluded** and not inside of an excluded one. -/
theorem visits_iff_mem_heard (files : List FileSyntax) (d : TypeDecl) :
    Visits files d ↔ ∃ c, (c, .entered d) ∈ Sweep.heard (units files) := by
  simp only [Sweep.heard_eq_deliveries, deliveries_units, List.mem_flatMap, Visits]
  constructor
  · rintro ⟨x, hx, hvisits⟩
    obtain ⟨c, hmem⟩ := (Forest.visits_iff _ _ [] d).mp hvisits
    exact ⟨c, x, hx, hmem⟩
  · rintro ⟨c, x, hx, hmem⟩
    exact ⟨x, hx, (Forest.visits_iff _ _ [] d).mpr ⟨c, hmem⟩⟩

theorem visits_of_mem_visited (h : (c, d) ∈ Sweep.visited (units files)) : Visits files d := by
  rw [visits_iff_mem_heard, Sweep.heard_eq_deliveries]
  exact ⟨c, Sweep.mem_visited.mp h⟩

/-- The type that an event stands in is visited. -/
theorem visits_of_current {e : Event} (hmem : (c, e) ∈ Sweep.deliveries (units files))
    (hd : c.current? = some d) : Visits files d := by
  obtain ⟨c', hc'⟩ := visited_of_current hmem hd
  exact visits_of_mem_visited hc'

/-- The type that declares a method is visited. -/
theorem exists_visits_of_declaring {m : MethodDecl} {r : TypeRef}
    (hmem : (c, .method m) ∈ Sweep.deliveries (units files)) (hr : m.declaring = some r) :
    ∃ d, Visits files d ∧ d.qualified = r.qualified := by
  obtain ⟨d, hd, hdeclaring⟩ := placed_of_mem_deliveries hmem
  obtain rfl : r = d.toRef := Option.some.inj (hr.symm.trans hdeclaring)
  exact ⟨d, visits_of_current hmem hd, rfl⟩

end Project

/-! ### Nodes in scope -/

/-- The names of the types that are in scope. -/
def Graph.scope (g : Graph) : Set String :=
  { name | ∃ n, (g.entity n).isType = true ∧ (g.entity n).isOutOfScope = false ∧
    (g.entity n).name = name }

namespace Analysis

open Java (FileSyntax)
open Project (Visits)

variable {files : List FileSyntax}

/-- **A node in scope is made for a declaration that sweeps go into.** -/
theorem MayAct.visits {c : Context} {e : Event} {name : String} {k : EntityKind} {ls : List Label}
    (hmem : (c, e) ∈ Sweep.deliveries (Project.units files)) (h : MayAct c e (.type name k ls))
    (hls : .outOfScope ∉ ls) : ∃ d, Visits files d ∧ d.qualified = name := by
  have hentered : ∀ {c d}, (c, .entered d) ∈ Sweep.deliveries (Project.units files) →
      Visits files d := fun hmem => Project.visits_of_mem_visited (Sweep.mem_visited.mpr hmem)
  cases h with
  | declaration h =>
      cases h with
      | type d => exact ⟨d, hentered hmem, rfl⟩
      | owner hr => exact Project.exists_visits_of_declaring hmem hr
  | supertype h =>
      cases h
      exact absurd List.mem_cons_self hls
  | role h =>
      cases h
      exact absurd List.mem_cons_self hls
  | factory h =>
      cases h with
      | type d => exact ⟨d, hentered hmem, rfl⟩
      | maker => exact absurd List.mem_cons_self hls
  | composition h =>
      cases h with
      | holder _ hcurrent => exact ⟨_, Project.visits_of_current hmem hcurrent, rfl⟩
      | owner hr => exact Project.exists_visits_of_declaring hmem hr

/-- Before detection, the names in scope are those of the visited declarations. -/
theorem scope_built (files : List FileSyntax) :
    (built (Project.units files)).scope = { name | ∃ d, Visits files d ∧ d.qualified = name } := by
  ext name
  constructor
  · rintro ⟨n, htype, hscope, rfl⟩
    obtain ⟨c, e, k, ls, hmem, hact, hlabels⟩ := exists_mayAct_of_isType htype
    refine hact.visits hmem fun hout => ?_
    rw [Entity.isOutOfScope, hlabels _ rfl] at hscope
    exact of_decide_eq_false hscope (List.mem_cons_of_mem _ hout)
  · rintro ⟨d, hvisits, rfl⟩
    rw [Project.visits_iff_mem_heard, Sweep.heard_eq_deliveries] at hvisits
    obtain ⟨c, hmem⟩ := hvisits
    obtain ⟨n, hn⟩ := exists_isNamed_declared (Sweep.mem_visited.mpr hmem)
    have hgrown := grown_declared_built (Project.units files)
    have hinScope := hgrown.inScope (Graph.lt_size_of_isNamed hn) (inScope_declared _ n)
    obtain ⟨hname, hkind⟩ := (Bool.and_eq_true _ _).mp (hgrown.isNamed hn)
    exact ⟨n, Sweep.isType_of_has d.isType_nodeKind hkind, hinScope, eq_of_beq hname⟩

/-- Detection puts nothing into scope or out of it. -/
theorem scope_detected (thresholds : HotspotThresholds) (g : Graph) :
    (detected thresholds g).scope = g.scope := by
  have H := agree_detected thresholds g
  ext name
  simp only [Graph.scope, Set.mem_ofPred_eq, H.isType rfl rfl, Entity.isOutOfScope,
    H.has (l := .outOfScope) rfl, H.name]

/-- **The scope is what is visited**: after an analysis of any files, the names of the types in
scope are those of the declarations that the sweeps go into, which are the ones that are not
excluded and not inside of an excluded one. All other types are out of scope. -/
theorem run_scope (thresholds : HotspotThresholds) (files : List FileSyntax) :
    ∃ summary g, Yields (run thresholds (Project.units files)) .empty summary g ∧
      g.scope = { name | ∃ c d, (c, .entered d) ∈ Sweep.heard (Project.units files) ∧
        d.qualified = name } ∧
      (∀ d, (∃ c, (c, .entered d) ∈ Sweep.heard (Project.units files)) ↔ Visits files d) ∧
      ∀ n, (g.entity n).isType = true → (∀ d, Visits files d → d.qualified ≠ (g.entity n).name) →
        (g.entity n).isOutOfScope = true := by
  obtain ⟨summary, hrun⟩ := yields_run_built (Project.units files) thresholds
  have hscope := (scope_detected thresholds _).trans (scope_built files)
  refine ⟨summary, _, hrun, ?_, fun d => (Project.visits_iff_mem_heard files d).symm,
    fun n htype hother => ?_⟩
  · rw [hscope]
    ext name
    simp only [Project.visits_iff_mem_heard, Set.mem_ofPred_eq]
    exact ⟨fun ⟨d, ⟨c, hmem⟩, hname⟩ => ⟨c, d, hmem, hname⟩,
      fun ⟨c, d, hmem, hname⟩ => ⟨d, ⟨c, hmem⟩, hname⟩⟩
  · refine Decidable.byContradiction fun hin => ?_
    have hmem : ((detected thresholds (built (Project.units files))).entity n).name ∈
        (detected thresholds (built (Project.units files))).scope :=
      ⟨n, htype, Bool.eq_false_iff.mpr hin, rfl⟩
    rw [hscope] at hmem
    obtain ⟨d, hd, hname⟩ := hmem
    exact hother d hd hname

end Analysis

end Variability
