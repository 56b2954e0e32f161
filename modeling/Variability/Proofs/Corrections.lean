import Variability.Proofs.Representation

/-!
# Corrected links

The second sweep counts its links to supertypes, and those among them that it corrected. A link
counts as corrected if its parent has another name than the reference, or if the link itself has
made the parent, out of scope. But the sweep decides this by the name that it finds for the
reference, before it asks for the node of that name. So a parent that the link makes goes uncounted
where the name of the reference is known all the same: as the name of a node of another kind, or as
an import of the file. There is no other way to miss a correction, and nothing else is counted.

To tell which links the counters stand for, the sweep is taken apart into its links
(`Sweep.Linking`): one after the other, for every supertype that a visited type mentions, each with
the counters and the graph that it meets and leaves.

## Main results

* `Sweep.Link.Happens.isCorrected_iff`: the links that are found to be corrected.
* `Sweep.exists_linking`: the links of a loop over any deliveries.
* `Analysis.run_corrections`: what is counted, in the second sweep over any units.
-/

namespace Variability

open Session

/-- A reference is taken to mean its own name if a node has it, or the file imports it. -/
theorem Graph.target?_eq_erasure_iff {g : Graph} {r : TypeRef} {imports : List Import} :
    g.target? r imports = some r.erasure ↔
      (∃ n < g.size, (g.entity n).name = r.erasure) ∨
        Target.singleImport r imports = some r.erasure := by
  unfold target? named
  cases hnamed : g.firstWhere fun e => e.name == r.erasure with
  | some n =>
      obtain ⟨hlt, -, hname⟩ := firstWhere_eq_some hnamed
      exact iff_of_true rfl (Or.inl ⟨n.id, hlt, eq_of_beq hname⟩)
  | none =>
      have hnone : ∀ n < g.size, (g.entity n).name ≠ r.erasure := fun n hn =>
        ne_of_beq_false (firstWhere_eq_none hnamed hn)
      have hnot : ¬ ∃ n < g.size, (g.entity n).name = r.erasure :=
        fun ⟨n, hn, hname⟩ => hnone n hn hname
      rw [or_iff_right hnot]
      cases hsingle : Target.singleImport r imports with
      | some name => rfl
      | none =>
          refine iff_of_false (fun hfound => ?_) (by simp)
          obtain ⟨package, -, hfound⟩ := List.exists_of_findSome?_eq_some hfound
          obtain ⟨n, hn, hname⟩ := Option.map_eq_some_iff.mp hfound
          obtain ⟨hlt, hnode, -⟩ := firstWhere_eq_some hn
          rw [hnode] at hname
          exact hnone n.id hlt hname

namespace Sweep

/-! ### Links -/

/-- A supertype that the declaration of a visited type mentions. -/
structure Mention where
  context : Context
  decl : TypeDecl
  relation : Relation
  reference : TypeRef

/-- The supertypes that a delivery mentions: the superclass and then the interfaces. -/
def Mention.all : Context × Event → List Mention
  | (context, .entered decl) =>
    Relation.inheritance.flatMap fun relation =>
      (decl.clause relation).map fun reference => { context, decl, relation, reference }
  | _ => []

/-- All supertypes that visited types mention, in the order of the events. -/
def mentions (units : List SourceUnit) : List Mention := (heard units).flatMap Mention.all

/-- Whether an entity is the one of the type whose declaration mentions the supertype. -/
def Mention.isChild (m : Mention) (e : Entity) : Bool :=
  isNamed m.decl.qualified m.decl.toRef.nodeKind e

/-- A link from the node `parent` of a mentioned supertype to the node `child` of the type, with the
counters and the graph before and after it. -/
structure Link extends Mention where
  child : NodeId
  parent : NodeId
  before : SupertypeCounts × Graph
  after : SupertypeCounts × Graph

/-- The sweep makes the link. -/
structure Link.Happens (l : Link) : Prop where
  isChild : l.isChild (l.before.2.entity l.child) = true
  yields : Yields ((linkSupertype l.context l.child l.relation l.reference).run l.before.1)
    l.before.2 ((), l.after.1) l.after.2
  edges : l.after.2.edges = l.before.2.edges.push ⟨l.parent, l.relation, l.child⟩

/-- The links for some supertypes, one after the other, from the counters and the graph at the start
to those at the end. A type that has no node, by its own kind, is passed over. -/
inductive Linking : List Mention → SupertypeCounts × Graph → List Link → SupertypeCounts × Graph →
    Prop
  | done {s : SupertypeCounts × Graph} : Linking [] s [] s
  | unknown {m : Mention} {ms : List Mention} {s t : SupertypeCounts × Graph} {links : List Link}
      (h : ∀ n, m.isChild (s.2.entity n) = false) (rest : Linking ms s links t) :
      Linking (m :: ms) s links t
  | linked {l : Link} {ms : List Mention} {t : SupertypeCounts × Graph} {links : List Link}
      (h : l.Happens) (rest : Linking ms l.after links t) :
      Linking (l.toMention :: ms) l.before (l :: links) t

namespace Link

/-- The parent has another name than the reference. -/
def IsRenamed (l : Link) : Prop := (l.after.2.entity l.parent).name ≠ l.reference.erasure

/-- The link has made the parent, out of scope. -/
def IsPlaced (l : Link) : Prop :=
  l.before.2.size ≤ l.parent ∧ (l.after.2.entity l.parent).has .outOfScope = true

/-- The name of the reference is known, whether or not the parent is there: some node has it, or it
is the single-type import for the reference. -/
def IsKnown (l : Link) : Prop :=
  (∃ n < l.before.2.size, (l.before.2.entity n).name = l.reference.erasure) ∨
    Target.singleImport l.reference l.context.imports = some l.reference.erasure

/-- What is counted as corrected. -/
def IsCorrected (l : Link) : Prop := l.IsRenamed ∨ (l.IsPlaced ∧ ¬ l.IsKnown)

instance (l : Link) : Decidable l.IsRenamed := inferInstanceAs (Decidable (_ ≠ _))

instance (l : Link) : Decidable l.IsPlaced := inferInstanceAs (Decidable (_ ∧ _))

instance (l : Link) : Decidable l.IsKnown := inferInstanceAs (Decidable (_ ∨ _))

instance (l : Link) : Decidable l.IsCorrected := inferInstanceAs (Decidable (_ ∨ _))

/-- The name that the sweep asks for. -/
def target (l : Link) : String :=
  (l.before.2.target? l.reference l.context.imports).getD l.reference.erasure

namespace Happens

variable {l : Link}

theorem after_eq (h : l.Happens) :
    l.after = (Effect.countLink l.context l.before.2 l.reference l.before.1,
      Effect.linkSupertype l.context l.child l.relation l.before.2 l.reference) := by
  have hlt : l.child < l.before.2.size := Graph.lt_size_of_isNamed h.isChild
  obtain ⟨hcounts, hgraph⟩ := h.yields.unique (yields_linkSupertype hlt l.before.1)
  exact Prod.ext (Prod.mk.inj hcounts).2 hgraph

theorem parent_eq (h : l.Happens) :
    l.parent = l.before.2.idFor l.target (supertypeKind l.relation) := by
  have hedges := h.edges
  rw [h.after_eq] at hedges
  simp only [Effect.linkSupertype, Graph.addEdge, Graph.edges_ask] at hedges
  exact congrArg Edge.source (Array.push_inj_right.mp hedges.symm)

/-- The parent at the end is the node that the link asks for. -/
theorem entity_parent (h : l.Happens) : l.after.2.entity l.parent =
    (l.before.2.ask l.target (supertypeKind l.relation) [.outOfScope] []).entity
      (l.before.2.idFor l.target (supertypeKind l.relation)) := by
  rw [h.after_eq, h.parent_eq]
  rfl

theorem name_parent (h : l.Happens) : (l.after.2.entity l.parent).name = l.target := by
  rw [h.entity_parent, name_idFor]

/-- A reference that points nowhere has its parent made. -/
theorem isPlaced_of_target? (h : l.Happens)
    (hnone : l.before.2.target? l.reference l.context.imports = none) : l.IsPlaced := by
  have htarget : l.target = l.reference.erasure := by rw [target, hnone, Option.getD_none]
  have hfirst : l.before.2.firstWhere (isNamed l.target (supertypeKind l.relation)) = none := by
    refine Option.eq_none_iff_forall_ne_some.mpr fun n hn => ?_
    obtain ⟨hlt, -, hnamed⟩ := Graph.firstWhere_eq_some hn
    have hname := eq_of_beq ((Bool.and_eq_true _ _).mp hnamed).1
    have hfound : l.before.2.target? l.reference l.context.imports = some l.reference.erasure :=
      Graph.target?_eq_erasure_iff.mpr (Or.inl ⟨n.id, hlt, hname.trans htarget⟩)
    rw [hnone] at hfound
    cases hfound
  have hparent : l.parent = l.before.2.size := by
    rw [h.parent_eq, Graph.idFor, hfirst]
    rfl
  refine ⟨Nat.le_of_eq hparent.symm, ?_⟩
  rw [h.entity_parent, ← h.parent_eq, hparent, Graph.ask, hfirst]
  simp [Graph.entity_addNode, Entity.has]

/-- **A link is corrected unless the reference points to its own name.** -/
theorem isCorrected_iff (h : l.Happens) : l.IsCorrected ↔
    l.before.2.target? l.reference l.context.imports ≠ some l.reference.erasure := by
  have hknown : l.IsKnown ↔
      l.before.2.target? l.reference l.context.imports = some l.reference.erasure :=
    Graph.target?_eq_erasure_iff.symm
  rw [IsCorrected, IsRenamed, h.name_parent, hknown, target]
  constructor
  · rintro (hrenamed | ⟨-, hunknown⟩) hfound
    · rw [hfound] at hrenamed
      exact hrenamed rfl
    · exact hunknown hfound
  · intro hne
    cases hfound : l.before.2.target? l.reference l.context.imports with
    | none => exact Or.inr ⟨h.isPlaced_of_target? hfound, by simp⟩
    | some name =>
        rw [hfound] at hne
        exact Or.inl fun hname => hne (congrArg some hname)

/-- What a link adds to the counters. -/
theorem counts (h : l.Happens) : l.after.1.links = l.before.1.links + 1 ∧
    l.after.1.corrected = l.before.1.corrected + if l.IsCorrected then 1 else 0 := by
  rw [h.after_eq, Effect.countLink]
  by_cases hfound : l.before.2.target? l.reference l.context.imports = some l.reference.erasure
  · have hnot : ¬ l.IsCorrected := fun hcorrected => h.isCorrected_iff.mp hcorrected hfound
    simp [hfound, hnot]
  · simp [hfound, h.isCorrected_iff.mpr hfound]

end Happens

/-- The link that the sweep makes for a mentioned supertype. -/
def made (m : Mention) (child : NodeId) (n : SupertypeCounts) (g : Graph) : Link where
  toMention := m
  child := child
  parent := g.idFor ((g.target? m.reference m.context.imports).getD m.reference.erasure)
    (supertypeKind m.relation)
  before := (n, g)
  after := (Effect.countLink m.context g m.reference n,
    Effect.linkSupertype m.context child m.relation g m.reference)

theorem happens_made {m : Mention} {child : NodeId} {g : Graph}
    (hchild : m.isChild (g.entity child) = true) (n : SupertypeCounts) :
    (made m child n g).Happens where
  isChild := hchild
  yields := yields_linkSupertype (Graph.lt_size_of_isNamed hchild) n
  edges := by simp [made, Effect.linkSupertype, Graph.addEdge]

end Link

namespace Linking

variable {ms ms' : List Mention} {s t u : SupertypeCounts × Graph} {links links' : List Link}

theorem append (h : Linking ms s links t) (h' : Linking ms' t links' u) :
    Linking (ms ++ ms') s (links ++ links') u := by
  induction h with
  | done => exact h'
  | unknown hnone _ ih => exact .unknown hnone (ih h')
  | linked hlink _ ih => exact .linked hlink (ih h')

/-- All supertypes of a type without a node are passed over. -/
theorem of_unknown (h : ∀ m ∈ ms, ∀ n, m.isChild (s.2.entity n) = false) : Linking ms s [] s := by
  induction ms with
  | nil => exact .done
  | cons m ms ih =>
      exact .unknown (h m List.mem_cons_self) (ih fun m hm => h m (List.mem_cons_of_mem _ hm))

theorem happens (h : Linking ms s links t) : ∀ l ∈ links, l.Happens := by
  induction h with
  | done => simp
  | unknown _ _ ih => exact ih
  | linked hlink _ ih => exact List.forall_mem_cons.mpr ⟨hlink, ih⟩

/-- The one link for one supertype of a type that has a node. -/
theorem exists_of_singleton {m : Mention} (h : Linking [m] s links t) {id : NodeId}
    (hm : m.isChild (s.2.entity id) = true) :
    ∃ l, l.Happens ∧ l.toMention = m ∧ l.before = s ∧ links = [l] ∧ l.after = t := by
  generalize hms : [m] = ms at h
  cases h with
  | done => cases hms
  | unknown hnone _ =>
      cases hms
      exact absurd ((hnone id).symm.trans hm) Bool.false_ne_true
  | linked hlink rest =>
      cases hms
      cases rest with
      | done => exact ⟨_, hlink, rfl, rfl, rfl, rfl⟩

/-- The counters at the end, from those at the start. -/
theorem counts (h : Linking ms s links t) : t.1.links = s.1.links + links.length ∧
    t.1.corrected = s.1.corrected + links.countP (·.IsCorrected) := by
  induction h with
  | done => exact ⟨rfl, rfl⟩
  | unknown _ _ ih => exact ih
  | @linked l _ _ links hlink _ ih =>
      obtain ⟨hlinks, hcorrected⟩ := hlink.counts
      rw [ih.1, ih.2, hlinks, hcorrected, List.length_cons, List.countP_cons]
      simp only [decide_eq_true_eq]
      omega

end Linking

/-! ### The sweep, link by link -/

/-- The handlers of the second sweep, as one. -/
def handleSupertypes (c : Context) : Event → StateT SupertypeCounts Session Unit
  | .entered d => linkSupertypes c d
  | _ => pure ()

theorem uniform_supertypes : supertypes.Uniform handleSupertypes :=
  ⟨fun _ _ => rfl, fun _ _ => rfl, fun _ _ => rfl, fun _ _ => rfl, fun _ _ => rfl, fun _ _ => rfl⟩

/-- The links of one clause. The node of the type stays what it is, so none is passed over. -/
theorem exists_linking_clause (c : Context) (d : TypeDecl) (relation : Relation)
    (refs : List TypeRef) (n : SupertypeCounts) {g : Graph} {child : NodeId}
    (hchild : isNamed d.qualified d.toRef.nodeKind (g.entity child) = true) :
    ∃ n' h links, Yields ((refs.forM (linkSupertype c child relation)).run n) g ((), n') h ∧
      Linking (refs.map fun r => ⟨c, d, relation, r⟩) (n, g) links (n', h) ∧
      isNamed d.qualified d.toRef.nodeKind (h.entity child) = true := by
  induction refs generalizing n g with
  | nil => exact ⟨n, g, [], Yields.pure _ _, .done, hchild⟩
  | cons r refs ih =>
      have hmade := Link.happens_made (m := ⟨c, d, relation, r⟩) hchild n
      have hgrown : g.Grown (g.ask ((g.target? r c.imports).getD r.erasure)
          (supertypeKind relation) [.outOfScope] []) :=
        grown_ask (isType_supertypeKind relation) (by simp) (by simp)
      obtain ⟨n', h, links, hrest, hlinking, hchild'⟩ :=
        ih (Effect.countLink c g r n) (g := Effect.linkSupertype c child relation g r)
          (hgrown.isNamed hchild)
      exact ⟨n', h, _, hmade.yields.run_bind hrest, .linked hmade hlinking, hchild'⟩

/-- The links of one type, superclass first. -/
theorem exists_linking_type (c : Context) (d : TypeDecl) (n : SupertypeCounts) (g : Graph) :
    ∃ n' h links, Yields ((linkSupertypes c d).run n) g ((), n') h ∧
      Linking (Mention.all (c, .entered d)) (n, g) links (n', h) := by
  have hfind := (yields_findSubtype (g := g) d).lift n
  cases hthis : g.firstWhere (isNamed d.qualified d.toRef.nodeKind) with
  | none =>
      rw [hthis] at hfind
      refine ⟨n, g, [], hfind.run_bind (Yields.pure _ _), .of_unknown fun m hm id => ?_⟩
      obtain ⟨relation, -, hm⟩ := List.mem_flatMap.mp hm
      obtain ⟨r, -, rfl⟩ := List.mem_map.mp hm
      refine Bool.eq_false_iff.mpr fun hchild => ?_
      have hnone := Graph.firstWhere_eq_none hthis (Graph.lt_size_of_isNamed hchild)
      exact Bool.false_ne_true (hnone.symm.trans hchild)
  | some this =>
      rw [hthis] at hfind
      have hchild := (Graph.firstWhere_eq_some hthis).2.2
      obtain ⟨n₁, g₁, links₁, hextending, hlinking₁, hchild₁⟩ :=
        exists_linking_clause c d .extending d.superclass.toList n hchild
      obtain ⟨n₂, g₂, links₂, himplementing, hlinking₂, -⟩ :=
        exists_linking_clause c d .implementing d.interfaces n₁ hchild₁
      refine ⟨n₂, g₂, links₁ ++ links₂,
        hfind.run_bind (hextending.run_bind himplementing), ?_⟩
      simpa [Mention.all, Relation.inheritance, TypeDecl.clause] using hlinking₁.append hlinking₂

/-- **The links of a loop over any deliveries.** -/
theorem exists_linking (ds : List (Context × Event)) (n : SupertypeCounts) (g : Graph) :
    ∃ n' h links, Yields ((forM ds fun d => handleSupertypes d.1 d.2).run n) g ((), n') h ∧
      Linking (ds.flatMap Mention.all) (n, g) links (n', h) := by
  induction ds generalizing n g with
  | nil => exact ⟨n, g, [], Yields.pure _ _, .done⟩
  | cons d ds ih =>
      obtain ⟨c, e⟩ := d
      obtain ⟨n₁, g₁, links₁, hfirst, hlinking₁⟩ : ∃ n₁ g₁ links₁,
          Yields ((handleSupertypes c e).run n) g ((), n₁) g₁ ∧
          Linking (Mention.all (c, e)) (n, g) links₁ (n₁, g₁) := by
        cases e with
        | entered d => exact exists_linking_type c d n g
        | _ => exact ⟨n, g, [], Yields.pure _ _, .done⟩
      obtain ⟨n₂, g₂, links₂, hrest, hlinking₂⟩ := ih n₁ g₁
      rw [List.forM_cons, List.flatMap_cons]
      exact ⟨n₂, g₂, _, hfirst.run_bind hrest, hlinking₁.append hlinking₂⟩

end Sweep

namespace Analysis

open Sweep (Linking Mention)

/-- The links of the second sweep. -/
theorem exists_sweep_linking (units : List SourceUnit) (g : Graph) :
    ∃ report n h links, Yields (sweep Sweep.supertypes {} units) g (report, n) h ∧
      Linking (Sweep.mentions units) ({}, g) links (n, h) := by
  obtain ⟨report, hrun⟩ := Sweep.uniform_supertypes.exists_run_eq units
  obtain ⟨n, h, links, hyields, hlinking⟩ := Sweep.exists_linking (Sweep.deliveries units) {} g
  refine ⟨report, n, h, links, ?_, ?_⟩
  · rw [sweep, hrun]
    exact hyields.run_bind (Yields.pure _ _)
  · rw [Sweep.mentions, Sweep.heard_eq_deliveries]
    exact hlinking

/-- **What is counted as corrected**: for all source units, the second sweep on the graph of the
first consists of links, and each of them is counted as corrected exactly if its parent has another
name than the reference, or was made by the link, out of scope, while the name of the reference was
not known otherwise. -/
theorem run_corrections (units : List SourceUnit) :
    ∃ first g second n h links, Yields (sweep Sweep.declarations {} units) .empty first g ∧
      Yields (sweep Sweep.supertypes {} units) g (second, n) h ∧
      Linking (Sweep.mentions units) ({}, g) links (n, h) ∧
      (∀ l ∈ links, l.after.1.links = l.before.1.links + 1 ∧ l.after.1.corrected =
        l.before.1.corrected + if l.IsRenamed ∨ (l.IsPlaced ∧ ¬ l.IsKnown) then 1 else 0) ∧
      n.links = links.length ∧
      n.corrected = links.countP fun l => l.IsRenamed ∨ (l.IsPlaced ∧ ¬ l.IsKnown) := by
  obtain ⟨first, hdeclared⟩ := yields_sweep_apply units Sweep.acting_declarations
    Sweep.building_declarations {} Graph.closed_empty
  obtain ⟨second, n, h, links, hlinked, hlinking⟩ :=
    exists_sweep_linking units (declared units)
  obtain ⟨hlinks, hcorrected⟩ := hlinking.counts
  refine ⟨first, declared units, second, n, h, links, hdeclared, hlinked, hlinking,
    fun l hl => (hlinking.happens l hl).counts, ?_, ?_⟩
  · rw [hlinks, Nat.zero_add]
  · rw [hcorrected, Nat.zero_add]
    rfl

/-- A class whose superclass is declared nowhere. -/
def widget : TypeDecl where
  qualified := "a.Widget"
  simple := "Widget"
  package := ["a"]
  isPublic := true
  superclass := some { qualified := "javax.swing.JPanel", simple := "JPanel" }

/-- A file that imports the superclass of its class. -/
def widgetUnit : SourceUnit where
  path := "Widget.java"
  package := some "a"
  events := [.importing { path := "javax.swing.JPanel" }, .entered widget, .exited]

/-- The mention of that superclass. -/
def widgetMention : Mention where
  context := { imports := [{ path := "javax.swing.JPanel" }] }
  decl := widget
  relation := .extending
  reference := { qualified := "javax.swing.JPanel", simple := "JPanel" }

/-- **A parent that is made goes uncounted** if the file imports it by its name. -/
theorem corrections_widget : ∃ first g second n h l,
    Yields (sweep Sweep.declarations {} [widgetUnit]) .empty first g ∧
      Yields (sweep Sweep.supertypes {} [widgetUnit]) g (second, n) h ∧
      Linking (Sweep.mentions [widgetUnit]) ({}, g) [l] (n, h) ∧ l.IsPlaced ∧
      n = { links := 1, corrected := 0 } := by
  obtain ⟨first, hdeclared⟩ := yields_sweep_apply [widgetUnit] Sweep.acting_declarations
    Sweep.building_declarations {} Graph.closed_empty
  obtain ⟨second, n, h, links, hlinked, hlinking⟩ :=
    exists_sweep_linking [widgetUnit] (declared [widgetUnit])
  have hmentions : Sweep.mentions [widgetUnit] = [widgetMention] := rfl
  have hchild : widgetMention.isChild ((declared [widgetUnit]).entity 0) = true := by
    decide +kernel
  rw [hmentions] at hlinking ⊢
  obtain ⟨l, hhappens, hmention, hbefore, rfl, hafter⟩ := hlinking.exists_of_singleton hchild
  refine ⟨first, _, second, n, h, l, hdeclared, hlinked, hlinking, ?_, ?_⟩
  · rw [Sweep.Link.IsPlaced, hhappens.entity_parent, hhappens.parent_eq, Sweep.Link.target,
      hbefore, hmention]
    decide +kernel
  · rw [hhappens.after_eq, hbefore, hmention] at hafter
    obtain ⟨hn, -⟩ := Prod.mk.inj hafter
    rw [← hn]
    decide +kernel

end Analysis

end Variability
