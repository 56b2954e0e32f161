import Mathlib.Data.List.Forall2
import Variability.Proofs.Acts
import Variability.Proofs.Emission

/-!
# The node of a declared type

Each sweep looks for the node of a type by its name and kind, and tells the kind in its own way:
from the modifiers of the declaration, from the reference to the declared type, or from the relation
in which a type is named. Where all of them agree, a declared type of a project has a single node,
and each of its supertypes has left one edge into it, in the order of the declaration.

They differ in two cases. An abstract interface gets the node of a class, but is looked for as an
interface: no supertype is linked to its node, and with its members it gets a second one. And a type
that is named as a supertype of the other kind, a class after `implements` or an interface after the
`extends` of a class, gets a second node that is out of scope (`Analysis.Rival`). There is no other
way to lose an edge or to get a second node, but for names that look as if they had generic
arguments (`Name.IsAliased`).

## Main results

* `Analysis.answers_linksInto`: the edges from the supertypes of a declared type.
* `Analysis.rival_of_isType`: why there is a second node.
* `Analysis.run_represents`: the node of each visited type, after an analysis of any proper files.
* `Analysis.represents_read`: the same for the files that are read from any sources.
-/

namespace Variability

open Session
open Sweep (Context)

/-! ### Edges of one relation -/

namespace Graph

variable {g h : Graph} {n : NodeId}

/-- The edges of a relation that enter a node. -/
def linksInto (g : Graph) (relation : Relation) (n : NodeId) : List Edge :=
  (g.edgesInto n).filter (·.relation == relation)

theorem linksInto_addEdge (g : Graph) (s : NodeId) (r : Relation) (t : NodeId)
    (relation : Relation) (n : NodeId) :
    (g.addEdge s r t).linksInto relation n =
      g.linksInto relation n ++ if t = n ∧ r = relation then [⟨s, r, t⟩] else [] := by
  by_cases ht : t = n
  · by_cases hr : r = relation
    · simp [linksInto, edgesInto_eq, addEdge, ht, hr]
    · simp [linksInto, edgesInto_eq, addEdge, ht, hr]
  · simp [linksInto, edgesInto_eq, addEdge, ht]

/-- Acts that add no edge of a relation leave those that are there alone. -/
theorem By.linksInto {S : Act → Prop} (H : By S g h) {relation : Relation}
    (hS : ∀ a, S a → a.relation? ≠ some relation) (n : NodeId) :
    h.linksInto relation n = g.linksInto relation n := by
  have hedges := H.filter_edges (p := (· == relation)) fun a ha r hr =>
    beq_false_of_ne fun heq => hS a ha (heq ▸ hr)
  have hswap : ∀ g : Graph, g.linksInto relation n =
      (g.edges.toList.filter (·.relation == relation)).filter (·.target == n) := by
    intro g
    rw [Graph.linksInto, edgesInto_eq, List.filter_filter, List.filter_filter]
    exact List.filter_congr fun e _ => Bool.and_comm _ _
  rw [hswap, hswap, hedges]

/-- No two nodes have the name and the kind of a type. -/
theorem Sound.eq_of_isNamed (hg : g.Sound) {name : String} {k : EntityKind} (hk : k.isType = true)
    {m : NodeId} (hm : isNamed name k (g.entity m) = true)
    (hn : isNamed name k (g.entity n) = true) : m = n := by
  obtain ⟨hname, hkind⟩ := (Bool.and_eq_true _ _).mp hm
  obtain ⟨hname', hkind'⟩ := (Bool.and_eq_true _ _).mp hn
  exact hg.unique k hk m n hkind hkind' ((eq_of_beq hname).trans (eq_of_beq hname').symm)

/-- The node of a name and a kind is the first that is found. -/
theorem Sound.firstWhere_isNamed (hg : g.Sound) {name : String} {k : EntityKind}
    (hk : k.isType = true) (hn : isNamed name k (g.entity n) = true) :
    g.firstWhere (isNamed name k) = some (g.nodeAt n) := by
  have hlt : n < g.size := lt_size_of_has ((Bool.and_eq_true _ _).mp hn).2
  refine firstWhere_eq_some_iff.mpr ⟨hlt, rfl, hn, fun m hm => ?_⟩
  exact Bool.eq_false_iff.mpr fun hfound => Nat.ne_of_lt hm (hg.eq_of_isNamed hk hfound hn)

theorem lt_size_of_isNamed {name : String} {k : EntityKind}
    (hn : isNamed name k (g.entity n) = true) : n < g.size :=
  lt_size_of_has ((Bool.and_eq_true _ _).mp hn).2

/-- Nodes keep their names and kinds. -/
theorem Grown.isNamed_eq (H : g.Grown h) (hn : n < g.size) (name : String) (k : EntityKind) :
    isNamed name k (h.entity n) = isNamed name k (g.entity n) := by
  rw [isNamed, isNamed, H.name hn, H.keeps.has n hn (.kind k) rfl]

theorem Grown.isNamed (H : g.Grown h) {name : String} {k : EntityKind}
    (hn : isNamed name k (g.entity n) = true) : isNamed name k (h.entity n) = true :=
  (H.isNamed_eq (lt_size_of_isNamed hn) name k).trans hn

/-- What was asked for is there. -/
theorem isNamed_idFor {name : String} {k : EntityKind} {onCreate onMatch : List Label}
    (H : g.Grown (g.ask name k onCreate onMatch)) :
    Session.isNamed name k ((g.ask name k onCreate onMatch).entity (g.idFor name k)) = true := by
  cases hfirst : g.firstWhere (Session.isNamed name k) with
  | some m =>
      have hm : Session.isNamed name k (g.entity m.id) = true := (firstWhere_eq_some hfirst).2.2
      have hid : g.idFor name k = m.id := by rw [idFor, hfirst]; rfl
      rw [hid]
      exact H.isNamed hm
  | none => simp [ask, idFor, hfirst, entity_addNode, Session.isNamed, Entity.has]

end Graph

/-! ### Linking supertypes -/

namespace Effect

variable {g : Graph} {c : Context} {n : NodeId}

/-- Linking a type from a supertype adds one edge, from a node that the reference may mean. -/
theorem linksInto_linkSupertype (c : Context) (subtype : NodeId) (r : Relation) (g : Graph)
    (ref : TypeRef) :
    ∃ e : Edge, ref.MayMean c.imports
        ((linkSupertype c subtype r g ref).entity e.source).name ∧
      e.source < (linkSupertype c subtype r g ref).size ∧
      ∀ relation n, (linkSupertype c subtype r g ref).linksInto relation n =
        g.linksInto relation n ++ if subtype = n ∧ r = relation then [e] else [] := by
  refine ⟨⟨g.idFor ((g.target? ref c.imports).getD ref.erasure) (Sweep.supertypeKind r), r,
    subtype⟩, ?_, ?_, ?_⟩
  · show ref.MayMean c.imports ((g.ask _ (Sweep.supertypeKind r) [.outOfScope] []).entity
      (g.idFor ((g.target? ref c.imports).getD ref.erasure) (Sweep.supertypeKind r))).name
    rw [Sweep.name_idFor]
    exact g.mayMean_target_getD ref c.imports
  · exact Graph.lt_size_of_has (has_idFor g _ _ _)
  · intro relation n
    rw [linkSupertype, Graph.linksInto_addEdge]
    simp [Graph.linksInto, Graph.edgesInto_eq]

theorem name_linkSupertype (c : Context) (subtype : NodeId) (r : Relation) (ref : TypeRef)
    (hn : n < g.size) :
    ((linkSupertype c subtype r g ref).entity n).name = (g.entity n).name :=
  (grown_ask (Sweep.isType_supertypeKind r) (by simp) (by simp)).name hn

/-- Names stay while supertypes are linked. -/
theorem name_linkAll (c : Context) (subtype : NodeId) (r : Relation) (refs : List TypeRef)
    (hn : n < g.size) :
    ((refs.foldl (linkSupertype c subtype r) g).entity n).name = (g.entity n).name ∧
      n < (refs.foldl (linkSupertype c subtype r) g).size := by
  induction refs generalizing g with
  | nil => exact ⟨rfl, hn⟩
  | cons ref refs ih =>
      obtain ⟨hname, hlt⟩ := ih (Sweep.lt_size_linkSupertype (c := c) (r := ref) hn)
      exact ⟨hname.trans (name_linkSupertype c subtype r ref hn), hlt⟩

/-- The edges from the nodes that references may mean, in order. -/
def Answers (imports : List Import) (g : Graph) : List TypeRef → List Edge → Prop :=
  List.Forall₂ fun ref e => ref.MayMean imports (g.entity e.source).name ∧ e.source < g.size

/-- What was answered stays so while names stay. -/
theorem Answers.mono {h : Graph} {imports : List Import} {refs : List TypeRef} {es : List Edge}
    (hes : Answers imports g refs es)
    (H : ∀ m < g.size, (h.entity m).name = (g.entity m).name ∧ m < h.size) :
    Answers imports h refs es := by
  refine List.Forall₂.imp (fun ref e he => ?_) hes
  obtain ⟨hname, hlt⟩ := H e.source he.2
  exact ⟨hname ▸ he.1, hlt⟩

/-- Linking a type from its supertypes in a relation adds one edge for each, in order. -/
theorem linksInto_linkAll (c : Context) (n : NodeId) (r : Relation) (refs : List TypeRef)
    (g : Graph) :
    ∃ es : List Edge, Answers c.imports (refs.foldl (linkSupertype c n r) g) refs es ∧
      ∀ relation, (refs.foldl (linkSupertype c n r) g).linksInto relation n =
        g.linksInto relation n ++ if r = relation then es else [] := by
  induction refs generalizing g with
  | nil => exact ⟨[], .nil, fun relation => by simp⟩
  | cons ref refs ih =>
      obtain ⟨e, hmean, hlt, hfirst⟩ := linksInto_linkSupertype c n r g ref
      obtain ⟨es, hes, hrest⟩ := ih (linkSupertype c n r g ref)
      obtain ⟨hname, hlt'⟩ := name_linkAll c n r refs hlt
      refine ⟨e :: es, .cons ⟨hname ▸ hmean, hlt'⟩ hes, fun relation => ?_⟩
      rw [List.foldl_cons, hrest, hfirst, List.append_assoc]
      by_cases hr : r = relation
      · simp [hr]
      · simp [hr]

/-- Linking another type adds no edge. -/
theorem linksInto_linkAll_of_ne (c : Context) {subtype : NodeId} (hne : subtype ≠ n) (r : Relation)
    (refs : List TypeRef) (g : Graph) (relation : Relation) :
    (refs.foldl (linkSupertype c subtype r) g).linksInto relation n = g.linksInto relation n := by
  induction refs generalizing g with
  | nil => rfl
  | cons ref refs ih =>
      obtain ⟨e, -, -, hfirst⟩ := linksInto_linkSupertype c subtype r g ref
      rw [List.foldl_cons, ih, hfirst, if_neg (fun h => hne h.1), List.append_nil]

/-- A declared type that is found is linked from its supertypes. -/
theorem linksInto_linkSupertypes (c : Context) {d : TypeDecl}
    (hthis : g.firstWhere (isNamed d.qualified d.toRef.nodeKind) = some (g.nodeAt n))
    {relation : Relation} (hrelation : relation ∈ Relation.inheritance) :
    ∃ es : List Edge, Answers c.imports (linkSupertypes c d g) (d.clause relation) es ∧
      (linkSupertypes c d g).linksInto relation n = g.linksInto relation n ++ es := by
  obtain ⟨es, hes, hlinks⟩ := linksInto_linkAll c n .extending d.superclass.toList g
  obtain ⟨es', hes', hlinks'⟩ := linksInto_linkAll c n .implementing d.interfaces
    (d.superclass.toList.foldl (linkSupertype c n .extending) g)
  have heq : linkSupertypes c d g = d.interfaces.foldl (linkSupertype c n .implementing)
      (d.superclass.toList.foldl (linkSupertype c n .extending) g) := by
    rw [linkSupertypes, hthis]
    rfl
  rw [heq]
  rcases List.mem_cons.mp hrelation with rfl | hrelation
  · refine ⟨es, hes.mono fun m hm => name_linkAll c n .implementing d.interfaces hm, ?_⟩
    rw [hlinks', hlinks]
    simp
  · obtain rfl := List.mem_singleton.mp hrelation
    refine ⟨es', hes', ?_⟩
    rw [hlinks', hlinks]
    simp

/-- Nodes keep their names and kinds while supertypes are linked. -/
theorem isNamed_linkAll (c : Context) (subtype : NodeId) (r : Relation) (refs : List TypeRef)
    {name : String} {k : EntityKind} (hn : isNamed name k (g.entity n) = true) :
    isNamed name k ((refs.foldl (linkSupertype c subtype r) g).entity n) = true := by
  induction refs generalizing g with
  | nil => exact hn
  | cons ref refs ih =>
      have hasked : g.Grown (g.ask ((g.target? ref c.imports).getD ref.erasure)
          (Sweep.supertypeKind r) [.outOfScope] []) :=
        grown_ask (Sweep.isType_supertypeKind r) (by simp) (by simp)
      exact ih (hasked.isNamed hn)

/-- A supertype whose erased name some node has gets a node of this name, of the kind for the
relation. -/
theorem exists_isNamed_linkAll (c : Context) (subtype : NodeId) (r : Relation)
    {refs : List TypeRef} {ref : TypeRef} (href : ref ∈ refs) (hn : n < g.size)
    (hname : (g.entity n).name = ref.erasure) :
    ∃ m, isNamed ref.erasure (Sweep.supertypeKind r)
      ((refs.foldl (linkSupertype c subtype r) g).entity m) = true := by
  induction refs generalizing g with
  | nil => exact absurd href List.not_mem_nil
  | cons first refs ih =>
      rcases List.mem_cons.mp href with rfl | href
      · have htarget : (g.target? ref c.imports).getD ref.erasure = ref.erasure := by
          cases hnamed : g.named ref.erasure with
          | some m => rw [Graph.target?, hnamed]; rfl
          | none =>
              have hnot := Graph.firstWhere_eq_none hnamed hn
              rw [hname, beq_self_eq_true] at hnot
              cases hnot
        have hasked : g.Grown (g.ask ref.erasure (Sweep.supertypeKind r) [.outOfScope] []) :=
          grown_ask (Sweep.isType_supertypeKind r) (by simp) (by simp)
        refine ⟨g.idFor ref.erasure (Sweep.supertypeKind r), isNamed_linkAll c subtype r refs ?_⟩
        rw [linkSupertype, htarget]
        exact Graph.isNamed_idFor hasked
      · exact ih href (Sweep.lt_size_linkSupertype hn)
          ((name_linkSupertype c subtype r first hn).trans hname)

/-- A declared type that is found asks for its supertypes by the kinds for their relations. -/
theorem exists_isNamed_linkSupertypes (c : Context) {d : TypeDecl} {this : Node}
    (hthis : g.firstWhere (isNamed d.qualified d.toRef.nodeKind) = some this)
    {relation : Relation} {ref : TypeRef} (href : ref ∈ d.clause relation) (hn : n < g.size)
    (hname : (g.entity n).name = ref.erasure) :
    ∃ m, isNamed ref.erasure (Sweep.supertypeKind relation)
      ((linkSupertypes c d g).entity m) = true := by
  rw [linkSupertypes, hthis]
  cases relation with
  | extending =>
      obtain ⟨m, hm⟩ := exists_isNamed_linkAll c this.id .extending href hn hname
      exact ⟨m, isNamed_linkAll c this.id .implementing d.interfaces hm⟩
  | implementing =>
      obtain ⟨hname', hn'⟩ := name_linkAll c this.id .extending d.superclass.toList hn
      exact exists_isNamed_linkAll c this.id .implementing href hn' (hname'.trans hname)
  | member => exact absurd href List.not_mem_nil
  | composing => exact absurd href List.not_mem_nil

/-- A declared type that is not the one of a node leaves the node alone. -/
theorem linksInto_linkSupertypes_of_not (c : Context) {d : TypeDecl}
    (hn : isNamed d.qualified d.toRef.nodeKind (g.entity n) = false) (relation : Relation) :
    (linkSupertypes c d g).linksInto relation n = g.linksInto relation n := by
  unfold linkSupertypes
  split
  · rfl
  · rename_i this hthis
    have hne : this.id ≠ n := by
      rintro rfl
      rw [(Graph.firstWhere_eq_some hthis).2.2] at hn
      cases hn
    rw [linksInto_linkAll_of_ne c hne, linksInto_linkAll_of_ne c hne]

end Effect

/-! ### The node and its edges -/

/-- A visited type among the deliveries, with no other of its name before it or after it. -/
theorem Sweep.exists_split {units : List SourceUnit}
    (hnodup : ((visited units).map (·.2.qualified)).Nodup) {c : Context} {d : TypeDecl}
    (hd : (c, d) ∈ visited units) :
    ∃ before later, deliveries units = before ++ (c, .entered d) :: later ∧
      ∀ c' d', (c', .entered d') ∈ before ∨ (c', .entered d') ∈ later →
        d'.qualified ≠ d.qualified := by
  obtain ⟨before, later, hsplit⟩ := List.append_of_mem (mem_visited.mp hd)
  have hkeys := Project.enteredKeys_deliveries units
  refine ⟨before, later, hsplit, fun c' d' hmem heq => ?_⟩
  have hentered : ∀ ds : List (Context × Event), (c', Event.entered d') ∈ ds →
      d.qualified ∈ (Project.enteredKeys ds).map Prod.fst := fun ds hmem =>
    List.mem_map.mpr ⟨(d'.qualified, d'.kind), List.mem_filterMap.mpr ⟨_, hmem, rfl⟩, heq⟩
  have hnames : (visited units).map (·.2.qualified) =
      (Project.enteredKeys before).map Prod.fst ++
        d.qualified :: (Project.enteredKeys later).map Prod.fst := by
    have hfst : (visited units).map (·.2.qualified) =
        (Project.enteredKeys (deliveries units)).map Prod.fst := by
      rw [hkeys, List.map_map]
      rfl
    rw [hfst, hsplit, Project.enteredKeys_append, List.map_append]
    rfl
  rw [hnames] at hnodup
  obtain ⟨-, hlater, hdisjoint⟩ := List.nodup_append.mp hnodup
  rcases hmem with hmem | hmem
  · exact hdisjoint _ (hentered before hmem) _ List.mem_cons_self rfl
  · exact (List.nodup_cons.mp hlater).1 (hentered later hmem)

/-- Visited types of one name are one. -/
theorem Sweep.eq_of_visited {units : List SourceUnit}
    (hnodup : ((visited units).map (·.2.qualified)).Nodup) {c c' : Context} {d d' : TypeDecl}
    (hd : (c, d) ∈ visited units) (hd' : (c', d') ∈ visited units)
    (heq : d'.qualified = d.qualified) : d' = d :=
  congrArg Prod.snd (List.inj_on_of_nodup_map hnodup hd' hd heq)

namespace Analysis

variable {units : List SourceUnit} {c : Context} {d : TypeDecl} {n : NodeId}

/-- A visited type has a node since the first sweep. -/
theorem exists_isNamed_declared (hd : (c, d) ∈ Sweep.visited units) :
    ∃ n, isNamed d.qualified d.nodeKind ((declared units).entity n) = true := by
  obtain ⟨g, hgrown, hlater⟩ := Sweep.acting_declarations.exists_of_mem
    Sweep.building_declarations (fun _ _ => Sweep.isHandled_of_mem_deliveries)
    (Sweep.mem_visited.mp hd) Graph.closed_empty
  have hasked : g.Grown (Effect.declareType d g) :=
    grown_ask d.isType_nodeKind (fun l hl => Or.inl (d.isNote_of_mem_labels l hl))
      d.isNote_of_mem_labels
  exact ⟨_, hlater.isNamed (Graph.isNamed_idFor hasked)⟩

/-- There are no edges from supertypes after the first sweep. -/
theorem linksInto_declared {relation : Relation} (hrelation : relation ∈ Relation.inheritance)
    (n : NodeId) : (declared units).linksInto relation n = [] := by
  refine (by_declared units).linksInto ?_ n
  rintro a ⟨c, e, -, ha⟩ hr
  cases ha with
  | type => cases hr
  | note => cases hr
  | owner => cases hr
  | member =>
      cases hr
      exact absurd hrelation (by decide)

/-- After the second sweep there are no new edges from supertypes. -/
theorem linksInto_built {relation : Relation} (hrelation : relation ∈ Relation.inheritance)
    (n : NodeId) : (built units).linksInto relation n = (linked units).linksInto relation n := by
  refine (by_composing units).linksInto (fun a ha hr => ?_) n
  rw [ha relation hr] at hrelation
  exact absurd hrelation (by decide)

/-- Deliveries of other types leave the edges into a node alone. -/
theorem linksInto_apply_of_not {ds : List (Context × Event)}
    (hds : ∀ c e, (c, e) ∈ ds → Sweep.isHandled e = true) {g : Graph} (hg : g.Closed)
    (hn : n < g.size) (hother : ∀ c d, (c, .entered d) ∈ ds →
      isNamed d.qualified d.toRef.nodeKind (g.entity n) = false) (relation : Relation) :
    (Sweep.apply Effect.supertypes ds g).linksInto relation n = g.linksInto relation n := by
  refine (Sweep.acting_supertypes.apply_induction Sweep.building_supertypes hds hg
    (I := fun h => h.linksInto relation n = g.linksInto relation n) rfl ?_).1
  intro c e hmem h hgrown heq
  cases e with
  | entered d =>
      refine (Effect.linksInto_linkSupertypes_of_not c ?_ relation).trans heq
      rw [hgrown.isNamed_eq hn]
      exact hother c d hmem
  | _ => exact heq

/-- Only the declaration of a visited type adds edges into its node: it meets a graph without any,
and those that it leaves stay. -/
theorem exists_linkSupertypes (hnodup : ((Sweep.visited units).map (·.2.qualified)).Nodup)
    (hd : (c, d) ∈ Sweep.visited units)
    (hname : ((declared units).entity n).name = d.qualified) (hn : n < (declared units).size)
    {relation : Relation} (hrelation : relation ∈ Relation.inheritance) :
    ∃ g, (declared units).Grown g ∧ (Effect.linkSupertypes c d g).Grown (linked units) ∧
      g.linksInto relation n = [] ∧
      (linked units).linksInto relation n = (Effect.linkSupertypes c d g).linksInto relation n := by
  obtain ⟨before, later, hsplit, hother⟩ := Sweep.exists_split hnodup hd
  have hds : ∀ c e, (c, e) ∈ Sweep.deliveries units → Sweep.isHandled e = true :=
    fun _ _ => Sweep.isHandled_of_mem_deliveries
  rw [hsplit] at hds
  have hbefore := fun c e he => hds c e (List.mem_append_left _ he)
  have hlater := fun c e he => hds c e (List.mem_append_right _ (List.mem_cons_of_mem _ he))
  -- The node has the name of no other declaration, now and later.
  have hnot : ∀ {g : Graph}, (declared units).Grown g → ∀ c' d',
      (c', .entered d') ∈ before ∨ (c', .entered d') ∈ later →
      isNamed d'.qualified d'.toRef.nodeKind (g.entity n) = false := by
    intro g hgrown c' d' hmem
    have hne : (g.entity n).name ≠ d'.qualified := fun heq =>
      hother c' d' hmem (heq.symm.trans ((hgrown.name hn).trans hname))
    rw [isNamed, beq_false_of_ne hne, Bool.false_and]
  have hclosed := (sound_declared units).closed
  have hgrown : (declared units).Grown (Sweep.apply Effect.supertypes before (declared units)) :=
    Sweep.acting_supertypes.grown_apply Sweep.building_supertypes hbefore hclosed
  have hevent : (declared units).Grown
      (Effect.linkSupertypes c d (Sweep.apply Effect.supertypes before (declared units))) :=
    hgrown.trans (Sweep.acting_supertypes.grown Sweep.building_supertypes c
      (hds c _ (List.mem_append_right _ List.mem_cons_self)) (hgrown.closed hclosed))
  have happly : linked units = Sweep.apply Effect.supertypes later
      (Effect.linkSupertypes c d (Sweep.apply Effect.supertypes before (declared units))) := by
    rw [linked, hsplit, Sweep.apply_append]
    rfl
  rw [happly]
  refine ⟨_, hgrown, ?_, ?_, ?_⟩
  · exact Sweep.acting_supertypes.grown_apply Sweep.building_supertypes hlater
      (hevent.closed hclosed)
  · rw [linksInto_apply_of_not hbefore hclosed hn
      (fun c' d' hmem => hnot .refl c' d' (Or.inl hmem)), linksInto_declared hrelation]
  · exact linksInto_apply_of_not hlater (hevent.closed hclosed) (hevent.lt hn)
      (fun c' d' hmem => hnot hevent c' d' (Or.inr hmem)) relation

/-- **Each supertype of a visited type has left one edge into its node**, in the order of the
declaration, if the node is found under the kind of the reference. -/
theorem answers_linksInto (hnodup : ((Sweep.visited units).map (·.2.qualified)).Nodup)
    (hd : (c, d) ∈ Sweep.visited units) (hkind : d.nodeKind = d.toRef.nodeKind)
    (hn : isNamed d.qualified d.nodeKind ((declared units).entity n) = true) {relation : Relation}
    (hrelation : relation ∈ Relation.inheritance) :
    Effect.Answers c.imports (built units) (d.clause relation)
      ((built units).linksInto relation n) := by
  obtain ⟨g, hgrown, hlater, hempty, hstays⟩ := exists_linkSupertypes hnodup hd
    (eq_of_beq ((Bool.and_eq_true _ _).mp hn).1) (Graph.lt_size_of_isNamed hn) hrelation
  have hthis := (hgrown.sound (sound_declared units)).firstWhere_isNamed d.toRef.isType_nodeKind
    (hkind ▸ hgrown.isNamed hn)
  obtain ⟨es, hes, hlinks⟩ := Effect.linksInto_linkSupertypes c hthis hrelation
  have hedges : (built units).linksInto relation n = es := by
    rw [linksInto_built hrelation, hstays, hlinks, hempty, List.nil_append]
  have hafter := hlater.trans (grown_linked_built units)
  rw [hedges]
  exact hes.mono fun m hm => ⟨hafter.name hm, hafter.lt hm⟩

/-- **No supertype of an abstract interface has left an edge into its node.** -/
theorem linksInto_eq_nil (hnodup : ((Sweep.visited units).map (·.2.qualified)).Nodup)
    (hd : (c, d) ∈ Sweep.visited units) (hkind : d.nodeKind ≠ d.toRef.nodeKind)
    (hn : isNamed d.qualified d.nodeKind ((declared units).entity n) = true) {relation : Relation}
    (hrelation : relation ∈ Relation.inheritance) :
    (built units).linksInto relation n = [] := by
  obtain ⟨hname, hhas⟩ := (Bool.and_eq_true _ _).mp hn
  have hlt := Graph.lt_size_of_isNamed hn
  have hother : ∀ c' d', (c', .entered d') ∈ Sweep.deliveries units →
      isNamed d'.qualified d'.toRef.nodeKind ((declared units).entity n) = false := by
    intro c' d' hmem
    refine Bool.eq_false_iff.mpr fun hn' => hkind ?_
    obtain ⟨hname', hhas'⟩ := (Bool.and_eq_true _ _).mp hn'
    obtain rfl : d' = d := Sweep.eq_of_visited hnodup hd (Sweep.mem_visited.mpr hmem)
      ((eq_of_beq hname').symm.trans (eq_of_beq hname))
    obtain ⟨k, hk⟩ := (sound_declared units).kind n hlt
    rw [hk] at hhas hhas'
    exact (of_decide_eq_true hhas).trans (of_decide_eq_true hhas').symm
  rw [linksInto_built hrelation, linked, linksInto_apply_of_not
    (fun _ _ => Sweep.isHandled_of_mem_deliveries) (sound_declared units).closed hlt hother,
    linksInto_declared hrelation]

/-! ### Second nodes -/

/-- What any of the sweeps may do at an event. -/
inductive MayAct (c : Context) (e : Event) (a : Act) : Prop
  | declaration (h : Sweep.DeclarationAct c e a)
  | supertype (h : Sweep.SupertypeAct c e a)
  | role (h : Sweep.RoleAct e a)
  | factory (h : Sweep.FactoryAct e a)
  | composition (h : Sweep.CompositionAct c e a)

/-- The acts of all sweeps. -/
theorem by_mayAct (units : List SourceUnit) :
    Graph.By (fun a => ∃ c e, (c, e) ∈ Sweep.deliveries units ∧ MayAct c e a) .empty
      (built units) := by
  have h₁ := (by_declared units).mono fun _ ⟨c, e, hmem, ha⟩ =>
    (⟨c, e, hmem, .declaration ha⟩ : ∃ c e, (c, e) ∈ Sweep.deliveries units ∧ MayAct c e _)
  have h₂ := (by_linked units).mono fun _ ⟨c, e, hmem, ha⟩ =>
    (⟨c, e, hmem, .supertype ha⟩ : ∃ c e, (c, e) ∈ Sweep.deliveries units ∧ MayAct c e _)
  have h₃ := (by_marked units).mono fun _ ⟨c, e, hmem, ha⟩ =>
    (⟨c, e, hmem, .role ha⟩ : ∃ c e, (c, e) ∈ Sweep.deliveries units ∧ MayAct c e _)
  have h₄ := (by_produced units).mono fun _ ⟨c, e, hmem, ha⟩ =>
    (⟨c, e, hmem, .factory ha⟩ : ∃ c e, (c, e) ∈ Sweep.deliveries units ∧ MayAct c e _)
  have h₅ := (by_built units).mono fun _ ⟨c, e, hmem, ha⟩ =>
    (⟨c, e, hmem, .composition ha⟩ : ∃ c e, (c, e) ∈ Sweep.deliveries units ∧ MayAct c e _)
  exact h₁.trans (h₂.trans (h₃.trans (h₄.trans h₅)))

/-- No act notes a kind or a scope. -/
theorem MayAct.isFixed_of_note {e : Event} {id : NodeId} {ls : List Label}
    (h : MayAct c e (.note id ls)) : ∀ l ∈ ls, l.isFixed = false := by
  have hpattern : ∀ p, ∀ l ∈ [Label.pattern p], l.isFixed = false := by
    intro p l hl
    rw [List.mem_singleton.mp hl]
    rfl
  cases h with
  | declaration h =>
      cases h with
      | note d =>
          intro l hl
          refine Bool.eq_false_iff.mpr fun hfixed => ?_
          have hnote := d.isNote_of_mem_labels l hl
          rw [Label.isNote_of_isFixed hfixed] at hnote
          cases hnote
  | supertype h => cases h
  | role h =>
      cases h with
      | note _ _ p => exact hpattern p
  | factory h =>
      cases h with
      | note => exact hpattern .factory
  | composition h => cases h

/-- A type has got its node as a type, with its kind and scope. -/
theorem exists_mayAct_of_isType {m : NodeId} (hm : ((built units).entity m).isType = true) :
    ∃ c e k ls, (c, e) ∈ Sweep.deliveries units ∧
      MayAct c e (.type ((built units).entity m).name k ls) ∧
      ∀ l, l.isFixed = true →
        ((built units).entity m).has l = decide (l ∈ Label.kind k :: ls) := by
  obtain ⟨a, ⟨c, e, hmem, ha⟩, hnew, hlabels⟩ := (by_mayAct units).exists_of_new
    (fun id ls ⟨_, _, _, h⟩ => h.isFixed_of_note) (Nat.zero_le m) (Graph.lt_size_of_isType hm)
  cases a with
  | type name k ls =>
      obtain rfl : name = ((built units).entity m).name := Option.some.inj hnew
      exact ⟨c, e, k, ls, hmem, ha, hlabels⟩
  | member owner name k ls =>
      -- Members are no types.
      have hhas : ((built units).entity m).has (.kind k) = true := by
        rw [hlabels _ rfl]
        simp [Act.labels]
      obtain ⟨k', hk'⟩ := (sound_built units).kind m (Graph.lt_size_of_isType hm)
      obtain rfl : k = k' := of_decide_eq_true ((hk' k).symm.trans hhas)
      rw [hk'.isType] at hm
      cases ha with
      | declaration h =>
          cases h with
          | @member d' =>
              rw [d'.isType_nodeKind] at hm
              cases hm
      | supertype h => cases h
      | role h => cases h
      | factory h => cases h
      | composition h => cases h
  | note => cases hnew
  | link => cases hnew

/-- Why a type may have a second node, of a kind that its own node is not of: it is named as a
supertype in a relation to types of that kind, or its name is taken for that of another type. -/
def Rival (units : List SourceUnit) (names : List String) (d : TypeDecl) (k : EntityKind) : Prop :=
  (∃ c' d' relation r, (c', d') ∈ Sweep.visited units ∧ r ∈ d'.clause relation ∧
    Sweep.supertypeKind relation = k ∧ r.MayMean c'.imports d.qualified) ∨
  Name.IsAliased names d.qualified

/-- How a type of a name and a kind may get a node: as its own, or as a rival out of scope. -/
theorem MayAct.rival {names : List String} (hunits : Sweep.Coherent units names)
    (hd : (c, d) ∈ Sweep.visited units) (hkind : d.nodeKind = d.toRef.nodeKind) {c' : Context}
    {e : Event} (hmem : (c', e) ∈ Sweep.deliveries units) {k : EntityKind} {ls : List Label}
    (h : MayAct c' e (.type d.qualified k ls)) :
    k = d.nodeKind ∨ (ls = [.outOfScope] ∧ Rival units names d k) := by
  have hself : ∀ {c' d'}, (c', d') ∈ Sweep.visited units → d'.qualified = d.qualified → d' = d :=
    fun hd' heq => Sweep.eq_of_visited hunits.nodup hd hd' heq
  -- The type that an event stands in, by its reference.
  have howner : ∀ {r : TypeRef} {c' d'}, (c', d') ∈ Sweep.visited units → r = d'.toRef →
      r.qualified = d.qualified → r.nodeKind = d.nodeKind := by
    rintro r c' d' hd' rfl heq
    rw [hself hd' heq, hkind]
  cases h with
  | declaration h =>
      generalize hname : d.qualified = name at h
      cases h with
      | type d' =>
          rw [hself (Sweep.mem_visited.mpr hmem) hname.symm]
          exact Or.inl rfl
      | owner hr =>
          obtain ⟨c'', d', hd', hr'⟩ := hunits.method _ _ _ hmem hr
          exact Or.inl (howner hd' hr' hname.symm)
  | supertype h =>
      cases h with
      | type hr hmean =>
          exact Or.inr ⟨rfl, Or.inl ⟨_, _, _, _, Sweep.mem_visited.mpr hmem, hr, rfl, hmean⟩⟩
  | role h =>
      generalize hname : d.qualified = name at h
      cases h with
      | type i =>
          rcases hunits.invocation _ i hmem c d hd hname.symm with heq | haliased
          · exact Or.inl (heq.trans hkind.symm)
          · exact Or.inr ⟨rfl, Or.inr haliased⟩
  | factory h =>
      generalize hname : d.qualified = name at h
      cases h with
      | type d' =>
          rw [hself (Sweep.mem_visited.mpr hmem) hname.symm]
          exact Or.inl rfl
      | maker hs =>
          obtain ⟨-, -, -, m, hm, -, -, hdeclaring⟩ := ReturnSite.returns_iff.mpr hs
          obtain ⟨c'', d', hd', rfl⟩ := hunits.returning _ _ m _ hmem hm hdeclaring
          by_cases heq : d'.qualified = d.qualified
          · exact Or.inl (howner hd' rfl heq)
          · exact Or.inr ⟨rfl, Or.inr ⟨_, hunits.known _ _ hd', hname.symm, heq⟩⟩
  | composition h =>
      generalize hname : d.qualified = name at h
      cases h with
      | holder _ hcurrent =>
          obtain ⟨c'', hd'⟩ := hunits.current _ _ _ hmem hcurrent
          exact Or.inl (howner hd' rfl hname.symm)
      | owner hr =>
          obtain ⟨c'', d', hd', hr'⟩ := hunits.method _ _ _ hmem hr
          exact Or.inl (howner hd' hr' hname.symm)

/-- **Why there is a second node**: a type with the name of a visited type is its node, or a rival
out of scope. -/
theorem rival_of_isType {names : List String} (hunits : Sweep.Coherent units names)
    (hd : (c, d) ∈ Sweep.visited units) (hkind : d.nodeKind = d.toRef.nodeKind) {m : NodeId}
    (hm : ((built units).entity m).isType = true)
    (hname : ((built units).entity m).name = d.qualified) :
    ((built units).entity m).has (.kind d.nodeKind) = true ∨
      (((built units).entity m).has .outOfScope = true ∧
        ∃ k ≠ d.nodeKind, ((built units).entity m).has (.kind k) = true ∧
          Rival units names d k) := by
  obtain ⟨c', e, k, ls, hmem, ha, hlabels⟩ := exists_mayAct_of_isType hm
  have hhas : ((built units).entity m).has (.kind k) = true := by
    rw [hlabels _ rfl]
    simp
  by_cases hk : k = d.nodeKind
  · exact Or.inl (hk ▸ hhas)
  · rw [hname] at ha
    obtain ⟨rfl, hrival⟩ := (ha.rival hunits hd hkind hmem).resolve_left hk
    refine Or.inr ⟨?_, k, hk, hhas, hrival⟩
    rw [hlabels _ rfl]
    simp

/-! ### Visited types -/

/-- The node of a visited type. -/
structure Represents (units : List SourceUnit) (names : List String) (g : Graph) (c : Context)
    (d : TypeDecl) (n : NodeId) : Prop where
  kind : (g.entity n).has (.kind d.nodeKind) = true
  name : (g.entity n).name = d.qualified
  inScope : (g.entity n).has .outOfScope = false
  /-- Unless it is an abstract interface, the type has got one edge for each superclass and one for
  each interface, in order, from a node that the reference may mean. -/
  linked : ¬(d.isAbstract = true ∧ d.isInterface = true) → ∀ relation ∈ Relation.inheritance,
    Effect.Answers c.imports g (d.clause relation) (g.linksInto relation n)
  /-- Unless it is an abstract interface, only a rival, out of scope, has the same name. -/
  single : ¬(d.isAbstract = true ∧ d.isInterface = true) → ∀ m, (g.entity m).isType = true →
    (g.entity m).name = d.qualified → m = n ∨
      ((g.entity m).has .outOfScope = true ∧
        ∃ k ≠ d.nodeKind, (g.entity m).has (.kind k) = true ∧ Rival units names d k)
  /-- A type that is named as a supertype, by its own name, has a node of the kind for the relation:
  this one, or a rival. -/
  named : ∀ c' d' relation r, (c', d') ∈ Sweep.visited units →
    ¬(d'.isAbstract = true ∧ d'.isInterface = true) → r ∈ d'.clause relation →
    r.erasure = d.qualified →
    ∃ m, (g.entity m).has (.kind (Sweep.supertypeKind relation)) = true ∧
      (g.entity m).name = d.qualified
  /-- An abstract interface has got no edge from a supertype. -/
  unlinked : d.isAbstract = true → d.isInterface = true → ∀ relation ∈ Relation.inheritance,
    g.linksInto relation n = []
  /-- An abstract interface with a method has got a second node. -/
  second : d.isAbstract = true → d.isInterface = true → ∀ c' m,
    (c', .method m) ∈ Sweep.deliveries units → m.declaring = some d.toRef →
      ∃ n' ≠ n, (g.entity n').has .interfaceType = true ∧ (g.entity n').name = d.qualified

/-- The declaration and the reference to it tell different kinds of abstract interfaces only. -/
theorem nodeKind_eq_iff (d : TypeDecl) :
    d.nodeKind = d.toRef.nodeKind ↔ ¬(d.isAbstract = true ∧ d.isInterface = true) := by
  unfold TypeDecl.nodeKind TypeRef.nodeKind TypeDecl.toRef
  cases d.isAbstract <;> cases d.isInterface <;> simp

/-- A member brings a node for the reference to the declaring type. -/
theorem exists_isNamed_owner {r : TypeRef} {m : MethodDecl}
    (hmem : (c, .method m) ∈ Sweep.deliveries units) (hm : m.declaring = some r) :
    ∃ n, isNamed r.qualified r.nodeKind ((declared units).entity n) = true := by
  obtain ⟨g, hgrown, hlater⟩ := Sweep.acting_declarations.exists_of_mem
    Sweep.building_declarations (fun _ _ => Sweep.isHandled_of_mem_deliveries) hmem
    Graph.closed_empty
  have hasked : g.Grown (g.ask r.qualified r.nodeKind [] []) :=
    grown_ask r.isType_nodeKind (by simp) (by simp)
  have hnamed := Graph.isNamed_idFor hasked
  refine ⟨g.idFor r.qualified r.nodeKind, hlater.isNamed ?_⟩
  rw [Effect.declarations, Effect.declareMember, hm]
  simp only [Graph.entity_addEdge]
  rw [Graph.entity_addNode, if_neg (Nat.ne_of_lt (Graph.lt_size_of_isNamed hnamed))]
  exact hnamed

/-- A type that is named as a supertype, by its own name, has a node of the kind for the
relation. -/
theorem exists_isNamed_supertype (hd : (c, d) ∈ Sweep.visited units) {c' : Context} {d' : TypeDecl}
    (hd' : (c', d') ∈ Sweep.visited units) (hkind : d'.nodeKind = d'.toRef.nodeKind)
    {relation : Relation} {r : TypeRef} (hr : r ∈ d'.clause relation)
    (hname : r.erasure = d.qualified) :
    ∃ m, isNamed d.qualified (Sweep.supertypeKind relation) ((linked units).entity m) = true := by
  obtain ⟨n, hn⟩ := exists_isNamed_declared hd
  obtain ⟨n', hn'⟩ := exists_isNamed_declared hd'
  obtain ⟨g, hgrown, hlater⟩ := Sweep.acting_supertypes.exists_of_mem
    Sweep.building_supertypes (fun _ _ => Sweep.isHandled_of_mem_deliveries)
    (Sweep.mem_visited.mp hd') (sound_declared units).closed
  have hthis := (hgrown.sound (sound_declared units)).firstWhere_isNamed d'.toRef.isType_nodeKind
    (hkind ▸ hgrown.isNamed hn')
  have hnamed := hgrown.isNamed hn
  have hcalled : (g.entity n).name = r.erasure :=
    (eq_of_beq ((Bool.and_eq_true _ _).mp hnamed).1).trans hname.symm
  obtain ⟨m, hm⟩ := Effect.exists_isNamed_linkSupertypes c' hthis hr
    (Graph.lt_size_of_isNamed hnamed) hcalled
  exact ⟨m, hlater.isNamed (hname ▸ hm)⟩

/-- **The node of each visited type**, before detection. -/
theorem represents_built {names : List String} (hunits : Sweep.Coherent units names)
    (hd : (c, d) ∈ Sweep.visited units) : ∃ n, Represents units names (built units) c d n := by
  obtain ⟨n, hdeclared⟩ := exists_isNamed_declared hd
  have hgrown := grown_declared_built units
  have hn := hgrown.isNamed hdeclared
  obtain ⟨hname, hhas⟩ := (Bool.and_eq_true _ _).mp hn
  have hname := eq_of_beq hname
  refine ⟨n, {
    kind := hhas
    name := hname
    inScope := hgrown.inScope (Graph.lt_size_of_isNamed hdeclared) (inScope_declared units n)
    linked := fun hplain relation hrelation => answers_linksInto hunits.nodup hd
      ((nodeKind_eq_iff d).mpr hplain) hdeclared hrelation
    single := fun hplain m hm hm' => ?_
    named := fun c' d' relation r hd' hplain hr heq => ?_
    unlinked := fun habstract hinterface relation hrelation => linksInto_eq_nil hunits.nodup hd
      (fun heq => (nodeKind_eq_iff d).mp heq ⟨habstract, hinterface⟩) hdeclared hrelation
    second := fun habstract hinterface c' m hmem hm => ?_ }⟩
  · have hkind := (nodeKind_eq_iff d).mpr hplain
    refine (rival_of_isType hunits hd hkind hm hm').imp (fun hsame => ?_) id
    exact (sound_built units).unique _ d.isType_nodeKind m n hsame hhas (hm'.trans hname.symm)
  · obtain ⟨m, hm⟩ := exists_isNamed_supertype hd hd' ((nodeKind_eq_iff d').mpr hplain) hr heq
    obtain ⟨hname', hhas'⟩ :=
      (Bool.and_eq_true _ _).mp ((grown_linked_built units).isNamed hm)
    exact ⟨m, hhas', eq_of_beq hname'⟩
  · obtain ⟨n', hn'⟩ := exists_isNamed_owner hmem hm
    obtain ⟨hname', hhas'⟩ := (Bool.and_eq_true _ _).mp (hgrown.isNamed hn')
    have hinterface' : d.toRef.nodeKind = .interfaceType := if_pos hinterface
    have hhas'' : ((built units).entity n').has .interfaceType = true := by
      rw [← hhas', hinterface']
    refine ⟨n', ?_, hhas'', eq_of_beq hname'⟩
    rintro rfl
    obtain ⟨k, hk⟩ := (sound_built units).kind n' (Graph.lt_size_of_has hhas)
    rw [hk] at hhas hhas'
    exact (nodeKind_eq_iff d).mp ((of_decide_eq_true hhas).trans (of_decide_eq_true hhas').symm)
      ⟨habstract, hinterface⟩

/-- Detection changes nothing about the node of a type. -/
theorem Represents.agree {names : List String} {g h : Graph} (hn : Represents units names g c d n)
    (H : g.Agree Trait.IsGiven h) : Represents units names h c d n := by
  have hkind : ∀ m k, (h.entity m).has (.kind k) = (g.entity m).has (.kind k) :=
    fun m k => H.has (l := .kind k) rfl m
  have hscope : ∀ m, (h.entity m).has .outOfScope = (g.entity m).has .outOfScope :=
    H.has (l := .outOfScope) rfl
  have hlinks : ∀ relation m, h.linksInto relation m = g.linksInto relation m := by
    intro relation m
    rw [Graph.linksInto, Graph.linksInto, Graph.edgesInto_eq, Graph.edgesInto_eq, H.edges]
  have htype : ∀ m, (h.entity m).isType = (g.entity m).isType := H.isType rfl rfl
  refine {
    kind := (hkind n _).trans hn.kind
    name := (H.name n).trans hn.name
    inScope := (hscope n).trans hn.inScope
    linked := fun hplain relation hrelation => ?_
    single := fun hplain m hm hname => ?_
    named := fun c' d' relation r hd' hplain hr heq => ?_
    unlinked := fun habstract hinterface relation hrelation =>
      (hlinks relation n).trans (hn.unlinked habstract hinterface relation hrelation)
    second := fun habstract hinterface c' m hmem hm => ?_ }
  · rw [hlinks]
    exact (hn.linked hplain relation hrelation).mono fun m hm => ⟨H.name m, H.size ▸ hm⟩
  · rw [htype] at hm
    rw [H.name] at hname
    simp only [hscope, hkind]
    exact hn.single hplain m hm hname
  · simp only [hkind, H.name]
    exact hn.named c' d' relation r hd' hplain hr heq
  · obtain ⟨n', hne, hinterface', hname⟩ := hn.second habstract hinterface c' m hmem hm
    exact ⟨n', hne, (hkind n' _).trans hinterface', (H.name n').trans hname⟩

/-- The node of each visited type, after an analysis of coherent units. -/
theorem represents_run {names : List String} (thresholds : HotspotThresholds)
    (hunits : Sweep.Coherent units names) :
    ∃ summary g, Yields (run thresholds units) .empty summary g ∧
      ∀ c d, (c, d) ∈ Sweep.visited units → ∃ n, Represents units names g c d n := by
  obtain ⟨summary, hyields⟩ := yields_run_built units thresholds
  refine ⟨summary, _, hyields, fun c d hd => ?_⟩
  obtain ⟨n, hn⟩ := represents_built hunits hd
  exact ⟨n, hn.agree (agree_detected thresholds _)⟩

/-- **The node of each visited type.** Whatever the files are, if classes are anonymous in method
bodies and only there and the declared types have distinct names, then after an analysis each type
that is visited has a node in scope. Unless it is an abstract interface, each of its supertypes has
left one edge into the node, and the node is the only one of its name but for rivals out of
scope. -/
theorem run_represents (thresholds : HotspotThresholds) (files : List Java.FileSyntax)
    (hfiles : ∀ f ∈ files, f.IsProper) (hnames : (Project.declaredNames files).Nodup) :
    ∃ summary g, Yields (run thresholds (Project.units files)) .empty summary g ∧
      ∀ c d, (c, d) ∈ Sweep.visited (Project.units files) →
        ∃ n, Represents (Project.units files) (Project.declaredNames files) g c d n :=
  represents_run thresholds (Project.coherent_units hfiles hnames)

/-- An interface, a class that implements it and one that extends the class, in two files. -/
def shapes : List (String × String) :=
  [("Shape.java", "package p; public interface Shape { Shape twin(); }"),
    ("Round.java",
      "package p; abstract class Base implements Shape {} class Round extends Base {}")]

theorem run_represents_shapes :
    (∀ f ∈ Project.readAll shapes, f.IsProper) ∧
      (Project.declaredNames (Project.readAll shapes)).Nodup ∧
      (Sweep.visited (Project.units (Project.readAll shapes))).map (·.2.qualified) =
        ["p.Shape", "p.Base", "p.Round"] ∧
      ∃ summary g, Yields (run {} (Project.units (Project.readAll shapes))) .empty summary g ∧
        ∀ c d, (c, d) ∈ Sweep.visited (Project.units (Project.readAll shapes)) →
          ∃ n, Represents (Project.units (Project.readAll shapes))
            (Project.declaredNames (Project.readAll shapes)) g c d n := by
  have hfiles : ∀ f ∈ Project.readAll shapes, f.IsProper := Project.isProper_of_mem_readAll
  have hnames : (Project.declaredNames (Project.readAll shapes)).Nodup := by decide +kernel
  exact ⟨hfiles, hnames, by decide +kernel, run_represents {} _ hfiles hnames⟩

/-- What is read is proper: the nodes of the visited types of any sources, given by their texts. -/
theorem represents_read (thresholds : HotspotThresholds) (sources : List (String × String))
    (hnames : (Project.declaredNames (Project.readAll sources)).Nodup) :
    ∃ summary g, Yields (run thresholds (Project.units (Project.readAll sources))) .empty
        summary g ∧
      ∀ c d, (c, d) ∈ Sweep.visited (Project.units (Project.readAll sources)) →
        ∃ n, Represents (Project.units (Project.readAll sources))
          (Project.declaredNames (Project.readAll sources)) g c d n :=
  represents_run thresholds (Project.coherent_units Project.isProper_of_mem_readAll hnames)

/-- An interface that is said to be abstract, below another one. -/
def abstractInterface : List (String × String) :=
  [("I.java", "interface J {} abstract interface I extends J { }")]

/-- The edge from the one interface to the other is lost. -/
theorem run_abstractInterface :
    (Project.declaredNames (Project.readAll abstractInterface)).Nodup ∧
      (Sweep.visited (Project.units (Project.readAll abstractInterface))).map
        (fun x => (x.2.qualified, x.2.interfaces.map (·.qualified))) =
          [("J", []), ("I", ["J"])] ∧
      ∃ summary g, Yields (run {} (Project.units (Project.readAll abstractInterface))) .empty
        summary g ∧ g.edges = #[] := by
  have hnames : (Project.declaredNames (Project.readAll abstractInterface)).Nodup := by
    decide +kernel
  obtain ⟨summary, hyields⟩ :=
    yields_run_built (Project.units (Project.readAll abstractInterface)) {}
  refine ⟨hnames, by decide +kernel, summary, _, hyields, (agree_detected {} _).edges.trans ?_⟩
  decide +kernel

end Analysis

end Variability
