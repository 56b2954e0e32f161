import Mathlib.Data.List.Forall2
import Variability.Proofs.Accounting
import Variability.Proofs.Representation

/-!
# Members of a type

The first sweep gives every declared member a node of its own, whatever else has its name, and an
edge from the node of the declaring type. Members of one type may come from several units, between
those of other types, so what is compared is the list of all member edges with the list of all
declared members, one delivery at a time: each delivery adds as many edges to the one as members to
the other, and no delivery changes the node of an earlier member. The members of one type are then
selected on both sides. The parts of an analysis that follow leave the member edges alone.

## Main results

* `Effect.owns_declarations`, `Effect.exists_memberEdges_declarations`: one delivery.
* `Effect.forall₂_memberEdges`: all of them, in order.
* `Analysis.listsMembers_declared`: the members of one type.
* `Analysis.run_members`: after the first sweep over any units, and until the end of an analysis.
-/

namespace Variability

open Session
open Sweep (Context)

/-! ### Declared members -/

/-- A declared member that handlers get: the context, the declaration and the declaring type. -/
structure Sweep.Membership where
  context : Context
  decl : MethodDecl
  owner : TypeRef

namespace Sweep.Membership

/-- The declared member of a delivery, if there is one and its declaring type is known. -/
def of? : Context × Event → Option Membership
  | (context, .method decl) => decl.declaring.map fun owner => { context, decl, owner }
  | _ => none

/-- Whether the innermost visited type is public. -/
def isInPublic (m : Membership) : Bool := m.context.current?.any (·.isPublic)

/-- Whether the declaring type has a name and a kind. -/
def isIn (q : String) (k : EntityKind) (m : Membership) : Bool :=
  m.owner.qualified == q && m.owner.nodeKind == k

theorem isIn_iff {q : String} {k : EntityKind} (m : Membership) :
    m.isIn q k = true ↔ m.owner.qualified = q ∧ m.owner.nodeKind = k := by
  simp [isIn]

end Sweep.Membership

/-- All declared members that handlers get, in the order of the events. -/
def Sweep.memberships (units : List SourceUnit) : List Sweep.Membership :=
  (heard units).filterMap Membership.of?

theorem Sweep.mem_memberships {units : List SourceUnit} {m : Sweep.Membership} :
    m ∈ memberships units ↔
      (m.context, .method m.decl) ∈ heard units ∧ m.decl.declaring = some m.owner := by
  rw [memberships, List.mem_filterMap]
  constructor
  · rintro ⟨⟨c, e⟩, hmem, hm⟩
    cases e with
    | method d =>
        obtain ⟨r, hr, rfl⟩ := Option.map_eq_some_iff.mp hm
        exact ⟨hmem, hr⟩
    | _ => cases hm
  · rintro ⟨hmem, howner⟩
    exact ⟨_, hmem, by rw [Membership.of?, howner]; rfl⟩

/-- What the node of a declared member says of it. The visibility is told in public types only. -/
structure Entity.Records (e : Entity) (m : Sweep.Membership) : Prop where
  name : e.name = m.decl.name
  kind : e.IsOf (if m.decl.isConstructor then .constructor else .method)
  abstract : e.has .abstract = m.decl.isAbstract
  exposed : e.has .exposed = (m.isInPublic && m.decl.isPublic)
  hidden : e.has .hidden = (m.isInPublic && !m.decl.isPublic)

/-- The node that a member is declared with. -/
theorem Sweep.Membership.records_new (m : Sweep.Membership) :
    Entity.Records { name := m.decl.name, labels := .ofList (.kind m.decl.nodeKind ::
      m.decl.labels (m.context.current?.any (·.isPublic))) } m where
  name := rfl
  kind := Entity.isOf_new (Graph.kind_not_mem fun l hl =>
    Or.inl (m.decl.isNote_of_mem_labels _ l hl))
  abstract := by
    unfold MethodDecl.labels
    cases m.decl.isAbstract <;> cases m.context.current?.any (·.isPublic) <;> simp [Entity.has]
  exposed := by
    unfold MethodDecl.labels isInPublic
    cases m.decl.isAbstract <;> cases m.context.current?.any (·.isPublic) <;>
      cases m.decl.isPublic <;> simp [Entity.has, Visibility.ofPublic]
  hidden := by
    unfold MethodDecl.labels isInPublic
    cases m.decl.isAbstract <;> cases m.context.current?.any (·.isPublic) <;>
      cases m.decl.isPublic <;> simp [Entity.has, Visibility.ofPublic]

namespace Graph

variable {g : Graph} {n : NodeId}

/-- The edges to members, in creation order. -/
def memberEdges (g : Graph) : List Edge := g.edges.toList.filter (·.relation == .member)

/-- The members of a node, in the order of the edges to them. -/
def memberIds (g : Graph) (n : NodeId) : List NodeId :=
  ((g.edgesFrom n).filter (·.relation == .member)).map (·.target)

/-- The edge leads from the node of the declaring type to a node for the member. -/
structure Owns (g : Graph) (e : Edge) (m : Sweep.Membership) : Prop where
  owner : isNamed m.owner.qualified m.owner.nodeKind (g.entity e.source) = true
  records : (g.entity e.target).Records m

theorem memberIds_eq (g : Graph) (n : NodeId) :
    g.memberIds n = (g.memberEdges.filter (·.source == n)).map (·.target) := by
  rw [memberIds, edgesFrom_eq, memberEdges, List.filter_filter, List.filter_filter]
  exact congrArg _ (List.filter_congr fun e _ => Bool.and_comm _ _)

/-- Asking for a node changes no node but the one that is asked for. -/
theorem entity_ask_of_not_isNamed {name : String} {kind : EntityKind} (hn : n < g.size)
    (hnot : isNamed name kind (g.entity n) = false) (onCreate onMatch : List Label) :
    (g.ask name kind onCreate onMatch).entity n = g.entity n := by
  unfold ask
  split
  · rename_i this hthis
    have hne : this.id ≠ n := by
      rintro rfl
      rw [(firstWhere_eq_some hthis).2.2] at hnot
      cases hnot
    rw [label, entity_update, if_neg fun hand => hne hand.1]
  · rw [entity_addNode, if_neg (Nat.ne_of_lt hn)]

/-- A node has one name and one kind. -/
theorem Sound.isNamed_inj (hg : g.Sound) {q q' : String} {k k' : EntityKind}
    (h : isNamed q k (g.entity n) = true) (h' : isNamed q' k' (g.entity n) = true) :
    q = q' ∧ k = k' := by
  obtain ⟨hname, hkind⟩ := (Bool.and_eq_true _ _).mp h
  obtain ⟨hname', hkind'⟩ := (Bool.and_eq_true _ _).mp h'
  obtain ⟨only, honly⟩ := hg.kind n (lt_size_of_has hkind)
  rw [honly, decide_eq_true_eq] at hkind hkind'
  exact ⟨(eq_of_beq hname).symm.trans (eq_of_beq hname'), hkind.trans hkind'.symm⟩

/-- A sound graph has no edges to the same member twice. -/
theorem Sound.nodup_memberEdges (hg : g.Sound) : (g.memberEdges.map (·.target)).Nodup := by
  refine List.nodup_iff_count_le_one.mpr fun t => ?_
  by_cases ht : t ∈ g.memberEdges.map (·.target)
  · obtain ⟨e, he, rfl⟩ := List.mem_map.mp ht
    obtain ⟨hmem, hrelation⟩ := List.mem_filter.mp he
    have htyped := hg.typed e (Array.mem_toList_iff.mp hmem)
    rw [Typed, eq_of_beq hrelation] at htyped
    have howner := hg.owner e.target htyped.2
    rw [owners, edgesInto_eq, List.countP_filter] at howner
    rw [List.count, List.countP_map, memberEdges, List.countP_filter]
    refine Nat.le_of_eq (Eq.trans (List.countP_congr fun x _ => ?_) howner)
    simp [and_comm]
  · rw [List.count_eq_zero_of_not_mem ht]
    exact Nat.zero_le 1

theorem Sound.nodup_memberIds (hg : g.Sound) (n : NodeId) : (g.memberIds n).Nodup := by
  rw [memberIds_eq]
  exact hg.nodup_memberEdges.sublist (List.filter_sublist.map _)

end Graph

/-! ### Deliveries -/

namespace Effect

variable {g : Graph} {c : Context}

/-- The first sweep changes no member that is there. -/
theorem entity_declarations (c : Context) (e : Event) {n : NodeId} {k : EntityKind}
    (hn : (g.entity n).IsOf k) (hk : k.isType = false) :
    (declarations c e g).entity n = g.entity n := by
  have hlt : n < g.size := Graph.lt_size_of_has ((hn k).trans (decide_eq_true rfl))
  have hnot : ∀ name k', k'.isType = true → isNamed name k' (g.entity n) = false := by
    intro name k' hk'
    have hne : k' ≠ k := by
      rintro rfl
      rw [hk] at hk'
      cases hk'
    rw [isNamed, hn k', decide_eq_false hne, Bool.and_false]
  cases e with
  | entered d => exact Graph.entity_ask_of_not_isNamed hlt (hnot _ _ d.isType_nodeKind) _ _
  | method d =>
      simp only [declarations, declareMember]
      cases d.declaring with
      | none => rfl
      | some r =>
          have hgrown : g.Grown (g.ask r.qualified r.nodeKind [] []) :=
            grown_ask r.isType_nodeKind (by simp) (by simp)
          rw [Graph.entity_addEdge, Graph.entity_addNode, if_neg (Nat.ne_of_lt (hgrown.lt hlt))]
          exact Graph.entity_ask_of_not_isNamed hlt (hnot _ _ r.isType_nodeKind) _ _
  | _ => rfl

/-- What is so declared stays so. -/
theorem owns_declarations (hg : g.Closed) {e : Event} (he : Sweep.isHandled e = true) {x : Edge}
    {m : Sweep.Membership} (h : g.Owns x m) : (declarations c e g).Owns x m where
  owner := (Sweep.acting_declarations.grown Sweep.building_declarations c he hg).isNamed h.owner
  records := by
    rw [entity_declarations c e h.records.kind (by split <;> rfl)]
    exact h.records

/-- One delivery adds a member edge for the declared member, if there is one. -/
theorem exists_memberEdges_declarations (c : Context) (e : Event) (g : Graph) :
    ∃ new, (declarations c e g).memberEdges = g.memberEdges ++ new ∧
      List.Forall₂ (declarations c e g).Owns new (Sweep.Membership.of? (c, e)).toList := by
  cases e with
  | entered d =>
      refine ⟨[], ?_, .nil⟩
      rw [List.append_nil, Graph.memberEdges, declarations, declareType, Graph.edges_ask]
      rfl
  | method d =>
      simp only [declarations, declareMember, Sweep.Membership.of?]
      cases d.declaring with
      | none => exact ⟨[], (List.append_nil _).symm, .nil⟩
      | some r =>
          have hgrown : g.Grown (g.ask r.qualified r.nodeKind [] []) :=
            grown_ask r.isType_nodeKind (by simp) (by simp)
          have howner := Graph.isNamed_idFor hgrown
          refine ⟨[⟨g.idFor r.qualified r.nodeKind, .member,
            (g.ask r.qualified r.nodeKind [] []).size⟩], ?_, .cons ⟨?_, ?_⟩ .nil⟩
          · simp [Graph.memberEdges, Graph.addEdge, Graph.addNode]
          · rw [Graph.entity_addEdge, Graph.entity_addNode,
              if_neg (Nat.ne_of_lt (Graph.lt_size_of_isNamed howner))]
            exact howner
          · rw [Graph.entity_addEdge, Graph.entity_addNode, if_pos rfl]
            exact Sweep.Membership.records_new ⟨c, d, r⟩
  | _ => exact ⟨[], (List.append_nil _).symm, .nil⟩

/-- **The member edges are those of the declared members, in order.** The induction goes by the last
delivery, since each adds to the end of both lists. -/
theorem forall₂_memberEdges {ds : List (Context × Event)}
    (hds : ∀ c e, (c, e) ∈ ds → Sweep.isHandled e = true) :
    List.Forall₂ (Sweep.apply declarations ds .empty).Owns
      (Sweep.apply declarations ds .empty).memberEdges (ds.filterMap Sweep.Membership.of?) := by
  induction ds using List.reverseRecOn with
  | nil => exact .nil
  | append_singleton ds d ih =>
      obtain ⟨c, e⟩ := d
      have hbefore : ∀ c e, (c, e) ∈ ds → Sweep.isHandled e = true :=
        fun c e he => hds c e (List.mem_append_left _ he)
      have hclosed : (Sweep.apply declarations ds .empty).Closed :=
        (Sweep.acting_declarations.grown_apply Sweep.building_declarations hbefore
          Graph.closed_empty).closed Graph.closed_empty
      have he : Sweep.isHandled e = true := hds c e (by simp)
      obtain ⟨new, hedges, hnew⟩ :=
        exists_memberEdges_declarations c e (Sweep.apply declarations ds .empty)
      have hlast : Sweep.apply declarations (ds ++ [(c, e)]) .empty =
          declarations c e (Sweep.apply declarations ds .empty) := Sweep.apply_append ..
      have hmember : [(c, e)].filterMap Sweep.Membership.of? =
          (Sweep.Membership.of? (c, e)).toList := by
        rw [List.filterMap_cons]
        cases Sweep.Membership.of? (c, e) <;> rfl
      rw [hlast, hedges, List.filterMap_append, hmember]
      exact List.rel_append ((ih hbefore).imp fun _ _ h => owns_declarations hclosed he h) hnew

end Effect

/-! ### Members of one type -/

/-- The graph lists the members that were declared in the type of a name and a kind. -/
structure Graph.ListsMembers (g : Graph) (units : List SourceUnit) (q : String) (k : EntityKind) :
    Prop where
  /-- No two nodes have the name and the kind. -/
  unique : ∀ m n, isNamed q k (g.entity m) = true → isNamed q k (g.entity n) = true → m = n
  /-- There is one if there is a member of it. -/
  exists_node : (∃ m ∈ Sweep.memberships units, m.isIn q k) → ∃ n, isNamed q k (g.entity n) = true
  /-- Its members are the declared ones, in the order of the events. -/
  records : ∀ n, isNamed q k (g.entity n) = true →
    List.Forall₂ (fun t m => (g.entity t).Records m) (g.memberIds n)
      ((Sweep.memberships units).filter (·.isIn q k))
  /-- No node stands for two of them. -/
  nodup : ∀ n, (g.memberIds n).Nodup

/-- The program succeeds on every closed graph, leaves a closed graph, and neither adds nor removes
a member edge. -/
def Session.KeepsMembers {α : Type} (x : Session α) : Prop :=
  ∀ g : Graph, g.Closed → ∃ a h, Yields x g a h ∧ h.Closed ∧ h.memberEdges = g.memberEdges

/-- Where the program succeeds on a closed graph, it leaves a closed graph and neither adds nor
removes a member edge. -/
def Session.LeavesMembers {α : Type} (x : Session α) : Prop :=
  ∀ g : Graph, g.Closed → ∀ a h, Yields x g a h → h.Closed ∧ h.memberEdges = g.memberEdges

theorem Session.Adds.keepsMembers {α : Type} {p : Relation → Prop} {x : Session α} (hx : Adds p x)
    (hp : ¬ p .member) : KeepsMembers x := by
  intro g hg
  obtain ⟨a, h, hyields, hclosed, new, hedges, hnew⟩ := hx g hg
  refine ⟨a, h, hyields, hclosed, ?_⟩
  have hnone : new.filter (·.relation == .member) = [] := by
    refine List.filter_eq_nil_iff.mpr fun e he hmember => hp ?_
    rw [← eq_of_beq hmember]
    exact hnew e he
  rw [Graph.memberEdges, hedges, List.filter_append, hnone, List.append_nil, Graph.memberEdges]

theorem Session.KeepsShape.keepsMembers {α : Type} {x : Session α} (hx : KeepsShape x) :
    KeepsMembers x := by
  intro g hg
  obtain ⟨a, h, hyields, hclosed, -, hedges⟩ := hx g hg
  exact ⟨a, h, hyields, hclosed, by rw [Graph.memberEdges, hedges, Graph.memberEdges]⟩

theorem Session.LeavesShape.leavesMembers {α : Type} {x : Session α} (hx : LeavesShape x) :
    LeavesMembers x := by
  intro g hg a h hyields
  obtain ⟨hclosed, -, hedges⟩ := hx g hg a h hyields
  exact ⟨hclosed, by rw [Graph.memberEdges, hedges, Graph.memberEdges]⟩

namespace Analysis

variable (units : List SourceUnit)

/-- **The first sweep lists the members of every type.** -/
theorem listsMembers_declared (q : String) {k : EntityKind} (hk : k.isType = true) :
    (declared units).ListsMembers units q k := by
  have hsound := sound_declared units
  refine ⟨fun _ _ => hsound.eq_of_isNamed hk, ?_, ?_, hsound.nodup_memberIds⟩
  · rintro ⟨m, hm, hin⟩
    obtain ⟨hmem, howner⟩ := Sweep.mem_memberships.mp hm
    obtain ⟨rfl, rfl⟩ := m.isIn_iff.mp hin
    rw [Sweep.heard_eq_deliveries] at hmem
    exact exists_isNamed_owner hmem howner
  · intro n hn
    have hall : List.Forall₂ (declared units).Owns (declared units).memberEdges
        (Sweep.memberships units) := by
      rw [Sweep.memberships, Sweep.heard_eq_deliveries]
      exact Effect.forall₂_memberEdges fun _ _ => Sweep.isHandled_of_mem_deliveries
    -- An edge leaves the node of the type exactly if its member was declared there.
    have hsame : ∀ e m, (declared units).Owns e m → (e.source == n ↔ m.isIn q k) := by
      intro e m h
      rw [beq_iff_eq, m.isIn_iff]
      constructor
      · rintro rfl
        exact hsound.isNamed_inj h.owner hn
      · rintro ⟨rfl, rfl⟩
        exact hsound.eq_of_isNamed hk h.owner hn
    rw [Graph.memberIds_eq, List.forall₂_map_left_iff]
    exact (List.rel_filter (fun e m h => hsame e m h) hall).imp fun _ _ h => h.records

/-- What the parts of an analysis that follow the first do on any closed graph. The hotspot rules
add numbers, so that they succeed is said of whole analyses only. -/
structure MembersKept (thresholds : HotspotThresholds) (units : List SourceUnit) : Prop where
  supertypes : KeepsMembers (sweep Sweep.supertypes {} units)
  roles : KeepsMembers (sweep Sweep.roles {} units)
  factories : KeepsMembers (sweep Sweep.factories {} units)
  compositions : KeepsMembers (sweep Sweep.compositions {} units)
  points : KeepsMembers Variation.detect
  hotspots : LeavesMembers (Hotspot.detect thresholds)

theorem membersKept (thresholds : HotspotThresholds) : MembersKept thresholds units where
  supertypes := (edgesByPart units thresholds).supertypes.keepsMembers (by decide)
  roles := (edgesByPart units thresholds).roles.keepsMembers id
  factories := (edgesByPart units thresholds).factories.keepsMembers id
  compositions := (edgesByPart units thresholds).compositions.keepsMembers (by decide)
  points := (edgesByPart units thresholds).points.keepsMembers
  hotspots := (edgesByPart units thresholds).hotspots.leavesMembers

/-- The member edges of the first sweep are those at the end. -/
theorem memberEdges_detected (thresholds : HotspotThresholds) :
    (detected thresholds (built units)).memberEdges = (declared units).memberEdges := by
  rw [Graph.memberEdges, (agree_detected thresholds (built units)).edges]
  exact (by_isLater units).filter_edges (p := (· == .member)) fun a ha r hr =>
    beq_false_of_ne (ha.relation_ne hr)

/-- **Every declared member is recorded once and in order**: by the first sweep over any source
units on the empty graph, for every class and interface; and no later part of an analysis adds or
removes a member edge, whatever the thresholds are. -/
theorem run_members (thresholds : HotspotThresholds) :
    ∃ report g, Yields (sweep Sweep.declarations {} units) .empty report g ∧
      (∀ q, g.ListsMembers units q .classType ∧ g.ListsMembers units q .interfaceType) ∧
      MembersKept thresholds units ∧
      ∃ summary h, Yields (run thresholds units) .empty summary h ∧
        h.memberEdges = g.memberEdges := by
  obtain ⟨report, hdeclared⟩ := yields_sweep_apply units Sweep.acting_declarations
    Sweep.building_declarations {} Graph.closed_empty
  obtain ⟨summary, hrun⟩ := yields_run_built units thresholds
  refine ⟨report, declared units, hdeclared, fun q => ⟨?_, ?_⟩, membersKept units thresholds,
    summary, _, hrun, memberEdges_detected units thresholds⟩
  · exact listsMembers_declared units q rfl
  · exact listsMembers_declared units q rfl

end Analysis

end Variability
