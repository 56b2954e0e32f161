import Variability.Java.File
import Variability.Project.Flatten
import Variability.Proofs.Acts

/-!
# Facts about types, and the members they may go to

Compositions, design patterns, variation points and variants are facts about types. The sweeps write
most of them on a node that was asked for as a type. The targets of compositions, strategies and
decorators are looked up by name alone, and types and members share one index of names. A member is
therefore taken for a type if it is the first node with its name and something that is used by a
type may mean that name (`Analysis.Mistaken`). This is the only way: every other fact of this kind
is on a type, for all units and all thresholds.

## Main results

* `Analysis.Levels`: what the sweeps keep true of patterns and compositions.
* `Analysis.levels_built`: it holds of the graph before detection.
* `Analysis.run_typeLevel`: after an analysis, facts about types are on types and on mistaken
  members.
-/

namespace Variability

open Session
open Sweep (Context)

/-! ### Uses -/

/-- An event uses a type by a reference that may mean a name: as the type of a field or of a
parameter, or, by its erased name only, as a return type. -/
def Event.Uses (c : Context) (name : String) : Event → Prop
  | .field d => ∃ r, d.fieldType = some r ∧ r.MayMean c.imports name
  | .method d =>
    (∃ r, some r ∈ d.parameters ∧ r.MayMean c.imports name) ∨
      ∃ r, d.returnType = some r ∧ r.erasure = name
  | _ => False

namespace Analysis

variable {units : List SourceUnit} {g h : Graph} {n : NodeId}

/-- A member that is taken for a type: the first node with its name, and the name may be meant by
something that is used. -/
structure Mistaken (units : List SourceUnit) (g : Graph) (n : NodeId) : Prop where
  isMember : (g.entity n).isMember = true
  first : ∀ m < n, (g.entity m).name ≠ (g.entity n).name
  used : ∃ c e, (c, e) ∈ Sweep.deliveries units ∧ e.Uses c (g.entity n).name

/-- What can be found where a type is looked up by name. -/
def Found (units : List SourceUnit) (g : Graph) (n : NodeId) : Prop :=
  (g.entity n).isType = true ∨ Mistaken units g n

/-- A mistaken member stays one while nodes keep their kinds and names. -/
theorem Mistaken.extends (hn : Mistaken units g n) (H : g.Extends h) : Mistaken units h n := by
  have hlt := Graph.lt_size_of_isMember hn.isMember
  have hname := H.name n hlt
  refine ⟨(H.isMember hlt).trans hn.isMember, fun m hm => ?_, ?_⟩
  · rw [hname, H.name m (Nat.lt_trans hm hlt)]
    exact hn.first m hm
  · rw [hname]
    exact hn.used

theorem Found.extends (hn : Found units g n) (H : g.Extends h) : Found units h n :=
  hn.imp (fun htype => (H.isType (Graph.lt_size_of_isType htype)).trans htype) (·.extends H)

/-- The first node with a name that is used. -/
theorem found_of_named (hg : g.Sound) {c : Context} {e : Event}
    (he : (c, e) ∈ Sweep.deliveries units) {name : String} (hname : e.Uses c name) {n : Node}
    (hn : g.named name = some n) : Found units g n.id := by
  obtain ⟨hlt, -, heq, hfirst⟩ := Graph.firstWhere_eq_some_iff.mp hn
  obtain ⟨k, hk⟩ := hg.kind n.id hlt
  have heq : (g.entity n.id).name = name := eq_of_beq heq
  cases htype : k.isType with
  | true => exact Or.inl (hk.isType.trans htype)
  | false =>
      refine Or.inr ⟨by rw [hk.isMember, htype]; rfl, fun m hm => ?_, c, e, he, heq ▸ hname⟩
      rw [heq]
      exact ne_of_beq_false (hfirst m hm)

/-! ### What sweeps keep -/

/-- What may take part in a design pattern: a type, and in a strategy or a decorator also a mistaken
member. -/
def MayCarry (units : List SourceUnit) (g : Graph) (n : NodeId) (p : DesignPattern) : Prop :=
  (g.entity n).isType = true ∨ (Mistaken units g n ∧ (p = .strategy ∨ p = .decorator))

theorem MayCarry.extends {p : DesignPattern} (hn : MayCarry units g n p) (H : g.Extends h) :
    MayCarry units h n p :=
  hn.imp (fun htype => (H.isType (Graph.lt_size_of_isType htype)).trans htype)
    fun hm => ⟨hm.1.extends H, hm.2⟩

theorem Found.mayCarry {p : DesignPattern} (hn : Found units g n)
    (hp : p = .strategy ∨ p = .decorator) : MayCarry units g n p :=
  hn.imp id fun hm => ⟨hm, hp⟩

/-- Types are composed of what can be found where a type is looked up, and design patterns are where
they may be. -/
structure Levels (units : List SourceUnit) (g : Graph) : Prop where
  composing : ∀ s t, g.Step .composing s t → Found units g t
  pattern : ∀ n p, (g.entity n).has (.pattern p) = true → MayCarry units g n p

/-- Only new compositions and patterns need a look. -/
theorem Levels.of_new (hg : Levels units g) (H : g.Extends h)
    (hcomposing : ∀ s t, h.Step .composing s t → g.Step .composing s t ∨ Found units h t)
    (hpattern : ∀ n p, (h.entity n).has (.pattern p) = true →
      (g.entity n).has (.pattern p) = true ∨ MayCarry units h n p) : Levels units h where
  composing s t hstep :=
    (hcomposing s t hstep).elim (fun hold => (hg.composing s t hold).extends H) id
  pattern n p hp := (hpattern n p hp).elim (fun hold => (hg.pattern n p hold).extends H) id

/-- Asking for a type brings no composition and no pattern. -/
theorem Levels.ask (hg : Levels units g) {name : String} {kind : EntityKind}
    {onCreate onMatch : List Label} (hkind : kind.isType = true)
    (hcreate : ∀ l ∈ onCreate, l.isNote = true ∨ l = .outOfScope)
    (hmatch : ∀ l ∈ onMatch, l.isNote = true)
    (hpattern : ∀ p, Label.pattern p ∉ onCreate ∧ .pattern p ∉ onMatch) :
    Levels units (g.ask name kind onCreate onMatch) := by
  refine hg.of_new (grown_ask hkind hcreate hmatch).extends (fun s t hstep => ?_) fun n p hp => ?_
  · rw [Graph.Step, Graph.edges_ask] at hstep
    exact Or.inl hstep
  · rw [Graph.has_ask_of_not_mem (by simpa using (hpattern p).1) (hpattern p).2] at hp
    exact Or.inl hp

theorem grown_labelIf {b : Bool} {id : NodeId} {l : Label} (hl : l.isNote = true) :
    g.Grown (g.labelIf b id l) := by
  unfold Graph.labelIf
  split
  · exact .single (.note (by simpa using hl))
  · exact .refl

/-- A pattern is noted where it may be. -/
theorem Levels.labelIf (hg : Levels units g) {b : Bool} {id : NodeId} {q : DesignPattern}
    (hq : Label.isNote (.pattern q) = true) (hid : b = true → MayCarry units g id q) :
    Levels units (g.labelIf b id (.pattern q)) := by
  refine hg.of_new (grown_labelIf hq).extends (fun s t hstep => ?_) fun n p hp => ?_
  · rw [Graph.Step, Graph.edges_labelIf] at hstep
    exact Or.inl hstep
  · rcases Graph.has_of_has_labelIf hp with hold | ⟨hb, rfl, hlabel⟩
    · exact Or.inl hold
    · cases hlabel
      exact Or.inr ((hid hb).extends (grown_labelIf hq).extends)

/-- An edge that is no composition. -/
theorem Levels.addEdge (hg : Levels units g) {s t : NodeId} {r : Relation} (hr : r ≠ .composing) :
    Levels units (g.addEdge s r t) := by
  refine hg.of_new ⟨Graph.keeps_addEdge .., fun _ _ => rfl⟩ (fun s' t' hstep => ?_)
    fun n p hp => Or.inl hp
  rcases Array.mem_push.mp hstep with hold | hnew
  · exact Or.inl hold
  · cases hnew
    exact absurd rfl hr

/-- A composition of what can be found. -/
theorem Levels.compose (hg : Levels units g) {parent used : NodeId} (hused : Found units g used) :
    Levels units (Effect.compose parent used g) := by
  unfold Effect.compose
  split
  · exact hg
  · have H : g.Extends (g.addEdge parent .composing used) :=
      ⟨Graph.keeps_addEdge .., fun _ _ => rfl⟩
    refine hg.of_new H (fun s t hstep => ?_) fun n p hp => Or.inl hp
    rcases Array.mem_push.mp hstep with hold | hnew
    · exact Or.inl hold
    · cases hnew
      exact Or.inr (hused.extends H)

/-- A new node without patterns. -/
theorem Levels.addNode (hg : Levels units g) (name : String) {ls : List Label}
    (hls : ∀ p, Label.pattern p ∉ ls) : Levels units (g.addNode name ls) := by
  refine hg.of_new ⟨Graph.keeps_addNode .., fun m hm => ?_⟩ (fun s t hstep => Or.inl hstep)
    fun n p hp => ?_
  · rw [Graph.entity_addNode, if_neg (Nat.ne_of_lt hm)]
  · rw [Graph.has_addNode_of_not_mem (hls p)] at hp
    exact Or.inl hp

/-! ### Declarations and supertypes -/

theorem levels_declareType (hg : Levels units g) (d : TypeDecl) :
    Levels units (Effect.declareType d g) :=
  hg.ask d.isType_nodeKind (fun l hl => Or.inl (d.isNote_of_mem_labels l hl))
    d.isNote_of_mem_labels fun p => ⟨d.pattern_not_mem_labels p, d.pattern_not_mem_labels p⟩

theorem levels_declareMember (hg : Levels units g) (c : Context) (d : MethodDecl) :
    Levels units (Effect.declareMember c d g) := by
  unfold Effect.declareMember
  split
  · exact hg
  · rename_i declaring _
    have hasked : Levels units (g.ask declaring.qualified declaring.nodeKind [] []) :=
      hg.ask declaring.isType_nodeKind (by simp) (by simp) (by simp)
    have hpattern : ∀ p, Label.pattern p ∉
        .kind d.nodeKind :: d.labels (c.current?.any (·.isPublic)) := by
      simp [d.pattern_not_mem_labels]
    exact (hasked.addNode d.name hpattern).addEdge (by decide)

theorem levels_linkSupertype (hg : Levels units g) (c : Context) (subtype : NodeId)
    {relation : Relation} (hrelation : relation ≠ .composing) (r : TypeRef) :
    Levels units (Effect.linkSupertype c subtype relation g r) :=
  Levels.addEdge (hg.ask (Sweep.isType_supertypeKind relation) (by simp) (by simp) (by simp))
    hrelation

theorem levels_linkSupertypes (hg : Levels units g) (c : Context) (d : TypeDecl) :
    Levels units (Effect.linkSupertypes c d g) := by
  unfold Effect.linkSupertypes
  split
  · exact hg
  · rename_i this _
    have hextends : Levels units (d.superclass.toList.foldl
        (Effect.linkSupertype c this.id .extending) g) :=
      List.foldlRecOn _ _ hg fun _ hg r _ => levels_linkSupertype hg c this.id (by decide) r
    exact List.foldlRecOn _ _ hextends
      fun _ hg r _ => levels_linkSupertype hg c this.id (by decide) r

/-! ### Patterns -/

/-- What has a variant is a type: members have no edges. -/
theorem isType_of_variantCount (hg : g.Sound) (hn : 0 < g.variantCount n) :
    (g.entity n).isType = true := by
  obtain ⟨m, ⟨r, -, hstep⟩, -⟩ := Graph.variantCount_pos_iff.mp hn
  exact (hg.typed _ hstep).isType

theorem levels_markHolder (hsound : g.Sound) (hg : Levels units g) (current : TypeDecl)
    (field : NodeId) : Levels units (Effect.markHolder current field g) := by
  unfold Effect.markHolder
  split
  · exact hg
  · rename_i holder _
    refine hg.labelIf rfl fun hb => Or.inl (isType_of_variantCount hsound ?_)
    exact of_decide_eq_true ((Bool.and_eq_true _ _).mp hb).2

theorem levels_markField (hsound : g.Sound) (hg : Levels units g) (current : TypeDecl) (r : TypeRef)
    (hn : Found units g n) : Levels units (Effect.markField current r n g) := by
  have H : g.Grown (g.labelIf (Effect.isStrategy r n g) n .strategy) := grown_labelIf rfl
  have hstrategy : Levels units (g.labelIf (Effect.isStrategy r n g) n .strategy) :=
    hg.labelIf rfl fun _ => hn.mayCarry (Or.inl rfl)
  have hdecorator := hstrategy.labelIf (b := Text.contains r.simple "Decorator") rfl
    fun _ => (hn.extends H.extends).mayCarry (Or.inr rfl)
  exact levels_markHolder ((H.trans (grown_labelIf rfl)).sound hsound) hdecorator current n

theorem levels_rolesOfField (hsound : g.Sound) (hg : Levels units g) {c : Context} {d : FieldDecl}
    (hmem : (c, .field d) ∈ Sweep.deliveries units) :
    Levels units (Effect.rolesOfField c d g) := by
  unfold Effect.rolesOfField
  split
  · rename_i r current hr _
    split
    · exact hg
    · split
      · exact hg
      · rename_i node hnode
        split
        · exact hg
        · obtain ⟨name, htarget, hnamed⟩ := Option.bind_eq_some_iff.mp hnode
          have huses : (Event.field d).Uses c name := ⟨r, hr, Graph.mayMean_of_target htarget⟩
          exact levels_markField hsound hg current r (found_of_named hsound hmem huses hnamed)
  · exact hg

/-- A pattern on a node that was asked for as a type. -/
theorem levels_labelIf_ask (hg : Levels units g) (name : String) {kind : EntityKind}
    (hkind : kind.isType = true) {onCreate : List Label}
    (hcreate : ∀ l ∈ onCreate, l = .outOfScope) (b : Bool) {q : DesignPattern}
    (hq : Label.isNote (.pattern q) = true) :
    Levels units ((g.ask name kind onCreate []).labelIf b (g.idFor name kind) (.pattern q)) := by
  have hasked : Levels units (g.ask name kind onCreate []) :=
    hg.ask hkind (fun l hl => Or.inr (hcreate l hl)) (by simp)
      fun p => ⟨fun hp => by simpa using hcreate _ hp, by simp⟩
  exact hasked.labelIf hq
    fun _ => Or.inl (Sweep.isType_of_has hkind (has_idFor g name kind onCreate))

theorem levels_rolesOfCall (hg : Levels units g) (c : Context) (i : Invocation) :
    Levels units (Effect.rolesOfCall c i g) :=
  levels_labelIf_ask hg _ i.declaring.isType_nodeKind (by simp) _ rfl

theorem levels_factoryByName (hg : Levels units g) (d : TypeDecl) :
    Levels units (Effect.factoryByName d g) := by
  unfold Effect.factoryByName
  split
  · exact levels_labelIf_ask hg d.qualified d.isType_nodeKind (by simp) true rfl
  · exact hg

theorem levels_factoryByReturn (hg : Levels units g) (s : ReturnSite) :
    Levels units (Effect.factoryByReturn s g) := by
  unfold Effect.factoryByReturn
  split
  · exact hg
  · rename_i declaring _ _ _
    exact levels_labelIf_ask hg _ declaring.isType_nodeKind (by simp) _ rfl

/-! ### Compositions -/

/-- The type that a reference is found to use. -/
theorem found_usedType (hg : g.Sound) {c : Context} {e : Event}
    (hmem : (c, e) ∈ Sweep.deliveries units) {r : TypeRef}
    (hr : ∀ name, r.MayMean c.imports name → e.Uses c name) {used : Node}
    (hused : Effect.usedType r c.imports g = some used) : Found units g used.id := by
  obtain ⟨hbind, -⟩ := Option.filter_eq_some_iff.mp hused
  obtain ⟨name, htarget, hnamed⟩ := Option.bind_eq_some_iff.mp hbind
  exact found_of_named hg hmem (hr name (Graph.mayMean_of_target htarget)) hnamed

theorem levels_composeField (hsound : g.Sound) (hg : Levels units g) {c : Context} {d : FieldDecl}
    (hmem : (c, .field d) ∈ Sweep.deliveries units) :
    Levels units (Effect.composeField c d g) := by
  unfold Effect.composeField
  split
  · rename_i r current hr _
    split
    · exact hg
    · split
      · exact hg
      · rename_i used hused
        have hfound := found_usedType hsound hmem (fun name hname => ⟨r, hr, hname⟩) hused
        have H : g.Grown (g.ask current.qualified current.toRef.nodeKind [] []) :=
          grown_ask current.toRef.isType_nodeKind (by simp) (by simp)
        exact Levels.compose (hg.ask current.toRef.isType_nodeKind (by simp) (by simp) (by simp))
          (hfound.extends H.extends)
  · exact hg

/-- A parameter keeps the graph sound, as it lets it grow. -/
theorem grown_composeParameter (c : Context) {parent : NodeId}
    (hparent : (g.entity parent).isType = true) (r : TypeRef) :
    g.Grown (Effect.composeParameter c parent g r) := by
  have hlt : (g.nodeAt parent).id < g.size := Graph.lt_size_of_isType hparent
  have hbuilds : BuildsAt (Sweep.composeParameter c (g.nodeAt parent) r) {} g fun _ _ => True :=
    Sweep.buildsAt_composeParameter hparent
  exact (Sweep.turnsIn_composeParameter .true c hlt r).1.turns.grown hbuilds

/-- What a method uses is found in a graph that stays sound, one use after the other. -/
theorem levels_composeSignature (hsound : g.Sound) (hg : Levels units g) {c : Context}
    {d : MethodDecl} (hmem : (c, .method d) ∈ Sweep.deliveries units) {parent : NodeId}
    (hparent : (g.entity parent).isType = true) (name : String) :
    Levels units (Effect.composeSignature c d parent name g) := by
  obtain ⟨hsound', htaken, -⟩ := List.foldlRecOn
    (motive := fun g => g.Sound ∧ Levels units g ∧ (g.entity parent).isType = true)
    (d.parameters.filterMap id) (Effect.composeParameter c parent) ⟨hsound, hg, hparent⟩ (by
      rintro g ⟨hsound, hg, hparent⟩ r hr
      have H := grown_composeParameter c hparent r
      refine ⟨H.sound hsound, ?_, H.isType hparent⟩
      unfold Effect.composeParameter
      split
      · exact hg
      · rename_i used hused
        have huses : ∀ name, r.MayMean c.imports name → (Event.method d).Uses c name :=
          fun name hname => Or.inl ⟨r, by simpa using hr, hname⟩
        exact hg.compose (found_usedType hsound hmem huses hused))
  unfold Effect.composeSignature
  split
  · exact htaken
  · cases hresult : d.returnType with
    | none => exact htaken
    | some r =>
        show Levels units (Effect.composeResult parent name _ r)
        unfold Effect.composeResult
        split
        · exact htaken
        · rename_i returned hreturned
          split
          · exact htaken
          · exact htaken.compose
              (found_of_named hsound' hmem (Or.inr ⟨r, hresult, rfl⟩) hreturned)

theorem levels_composeMethod (hsound : g.Sound) (hg : Levels units g) {c : Context}
    {d : MethodDecl} (hmem : (c, .method d) ∈ Sweep.deliveries units) :
    Levels units (Effect.composeMethod c d g) := by
  unfold Effect.composeMethod
  split
  · exact hg
  · rename_i declaring _
    have H : g.Grown (g.ask declaring.qualified declaring.nodeKind [] []) :=
      grown_ask declaring.isType_nodeKind (by simp) (by simp)
    have hasked : Levels units (g.ask declaring.qualified declaring.nodeKind [] []) :=
      hg.ask declaring.isType_nodeKind (by simp) (by simp) (by simp)
    have hparent := Sweep.isType_of_has declaring.isType_nodeKind
      (has_idFor g declaring.qualified declaring.nodeKind [])
    exact levels_composeSignature (H.sound hsound) hasked hmem hparent _

/-! ### Whole analyses -/

/-- **The sweeps keep the levels apart**, but for mistaken members. -/
theorem levels_built (units : List SourceUnit) : Levels units (built units) := by
  have hds : ∀ c e, (c, e) ∈ Sweep.deliveries units → Sweep.isHandled e = true :=
    fun _ _ => Sweep.isHandled_of_mem_deliveries
  have hempty : Levels units .empty := by
    refine ⟨fun s t hstep => ?_, fun n p hp => ?_⟩
    · simp [Graph.Step, Graph.empty] at hstep
    · exact absurd (Graph.lt_size_of_has hp) (Nat.not_lt_zero n)
  have hdeclared : Levels units (declared units) := by
    refine (Sweep.acting_declarations.apply_induction Sweep.building_declarations hds
      Graph.closed_empty hempty fun c e _ g _ hg => ?_).1
    cases e with
    | entered d => exact levels_declareType hg d
    | method d => exact levels_declareMember hg c d
    | _ => exact hg
  have hlinked : Levels units (linked units) := by
    refine (Sweep.acting_supertypes.apply_induction Sweep.building_supertypes hds
      (sound_declared units).closed hdeclared fun c e _ g _ hg => ?_).1
    cases e with
    | entered d => exact levels_linkSupertypes hg c d
    | _ => exact hg
  have hmarked : Levels units (marked units) := by
    refine (Sweep.acting_roles.apply_induction Sweep.building_roles hds
      (sound_linked units).closed hlinked fun c e hmem g hgrown hg => ?_).1
    rcases e with _ | _ | _ | _ | d | (_ | i) | _
    case field => exact levels_rolesOfField (hgrown.sound (sound_linked units)) hg hmem
    case invocation.some => exact levels_rolesOfCall hg c i
    all_goals exact hg
  have hproduced : Levels units (produced units) := by
    refine (Sweep.acting_factories.apply_induction Sweep.building_factories hds
      (sound_marked units).closed hmarked fun c e _ g _ hg => ?_).1
    cases e with
    | entered d => exact levels_factoryByName hg d
    | returning r => exact levels_factoryByReturn hg r
    | _ => exact hg
  refine (Sweep.acting_compositions.apply_induction Sweep.building_compositions hds
    (sound_produced units).closed hproduced fun c e hmem g hgrown hg => ?_).1
  have hsound := hgrown.sound (sound_produced units)
  cases e with
  | field d => exact levels_composeField hsound hg hmem
  | method d => exact levels_composeMethod hsound hg hmem
  | _ => exact hg

/-! ### Members that are taken for types -/

/-- Some type has a field of the type that a reference names. -/
def HasField (units : List SourceUnit) (current : TypeDecl) (r : TypeRef) : Prop :=
  ∃ c d, (c, .field d) ∈ Sweep.deliveries units ∧ d.fieldType = some r ∧ c.current? = some current

variable {c : Context} {current : TypeDecl} {r : TypeRef}

/-- A member that is the first node with its name is found under that name, in scope, at any time
after the first sweep. -/
theorem named_of_first (hn : ((built units).entity n).isMember = true)
    (hfirst : ∀ m < n, ((built units).entity m).name ≠ ((built units).entity n).name)
    (hbefore : (declared units).Grown g) (hafter : g.Grown (built units)) :
    g.named ((built units).entity n).name = some (g.nodeAt n) ∧
      (g.entity n).has .outOfScope = false := by
  -- Members are there since the first sweep, which puts nothing out of scope.
  have hlt : n < (declared units).size :=
    Graph.lt_size_of_isMember ((by_isLater units).isMember n ▸ hn)
  have hname : ∀ m ≤ n, (g.entity m).name = ((built units).entity m).name :=
    fun m hm => (hafter.name (hbefore.lt (Nat.lt_of_le_of_lt hm hlt))).symm
  refine ⟨Graph.firstWhere_eq_some_iff.mpr ⟨hbefore.lt hlt, rfl, ?_, fun m hm => ?_⟩,
    hbefore.inScope hlt (inScope_declared units n)⟩
  · exact beq_iff_eq.mpr (hname n (Nat.le_refl n))
  · rw [hname m (Nat.le_of_lt hm)]
    exact beq_false_of_ne (hfirst m hm)

/-- A reference that is looked up under the name of a node finds it. -/
theorem target_bind_named {m : Node} (hm : g.named r.erasure = some m) (imports : List Import) :
    (g.target? r imports).bind g.named = some m := by
  rw [Graph.target?, hm]
  exact hm

theorem grown_markHolder (current : TypeDecl) (field : NodeId) :
    g.Grown (Effect.markHolder current field g) := by
  unfold Effect.markHolder
  split
  · exact .refl
  · exact grown_labelIf rfl

/-- A field whose type is called a strategy makes a strategy of what is found under its name. -/
theorem has_strategy_markField (current : TypeDecl) (hlt : n < g.size)
    (hr : Text.contains r.simple "Strategy" = true) :
    ((Effect.markField current r n g).entity n).has .strategy = true := by
  have hlabelled : ((g.labelIf (Effect.isStrategy r n g) n .strategy).entity n).has
      .strategy = true := by
    rw [Effect.isStrategy, hr, Bool.true_or, Graph.labelIf, if_pos rfl, Graph.label,
      Graph.entity_update, if_pos ⟨rfl, hlt⟩, Entity.has_label]
    simp
  exact ((grown_labelIf rfl).trans (grown_markHolder current n)).has_of_has hlabelled

/-- Composition leaves some edge. -/
theorem exists_step_compose (parent used : NodeId) :
    ∃ relation, (Effect.compose parent used g).Step relation parent used := by
  unfold Effect.compose
  split
  · rename_i hrelated
    exact Graph.isRelated_iff.mp hrelated
  · exact ⟨.composing, Array.mem_push_self⟩

/-- What is found under the name of a field's type is linked from the type that has the field. -/
theorem exists_step_composeField {d : FieldDecl} (hr : d.fieldType = some r)
    (henum : r.isEnum = false) (hcurrent : c.current? = some current)
    (hnamed : g.named r.erasure = some (g.nodeAt n))
    (hscope : (g.entity n).has .outOfScope = false) :
    ∃ s relation, ((Effect.composeField c d g).entity s).isType = true ∧
      ((Effect.composeField c d g).entity s).name = current.qualified ∧
      (Effect.composeField c d g).Step relation s n := by
  have hused : Effect.usedType r c.imports g = some (g.nodeAt n) := by
    rw [Effect.usedType, target_bind_named hnamed, Option.filter_some, if_pos]
    show (!(g.entity n).has .outOfScope) = true
    rw [hscope]
    rfl
  obtain ⟨relation, hstep⟩ := exists_step_compose
    (g := g.ask current.qualified current.toRef.nodeKind [] [])
    (g.idFor current.qualified current.toRef.nodeKind) n
  have heq : Effect.composeField c d g =
      Effect.compose (g.idFor current.qualified current.toRef.nodeKind) n
        (g.ask current.qualified current.toRef.nodeKind [] []) := by
    simp only [Effect.composeField, hr, hcurrent, henum, hused]
    rfl
  have hentity : ∀ s, (Effect.composeField c d g).entity s =
      (g.ask current.qualified current.toRef.nodeKind [] []).entity s := by
    intro s
    rw [heq]
    unfold Effect.compose
    split <;> rfl
  refine ⟨_, relation, ?_, ?_, heq ▸ hstep⟩
  · rw [hentity]
    exact Sweep.isType_of_has current.toRef.isType_nodeKind (has_idFor g _ _ [])
  · rw [hentity]
    exact Sweep.name_idFor g _ _ []

/-- **A member is taken for a type** wherever it is the first node with the erased name of a field's
type: the type that has the field gets an edge to it, and it becomes a strategy if it is called
so. -/
theorem taken_of_hasField (hfield : HasField units current r) (henum : r.isEnum = false)
    (hn : ((built units).entity n).isMember = true)
    (hfirst : ∀ m < n, ((built units).entity m).name ≠ ((built units).entity n).name)
    (hname : ((built units).entity n).name = r.erasure) :
    (∃ s, ((built units).entity s).isType = true ∧
      ((built units).entity s).name = current.qualified ∧
      ((built units).Step .member s n ∨ (built units).Step .composing s n)) ∧
    (Text.contains r.simple "Strategy" = true →
      ((built units).entity n).has .strategy = true) := by
  obtain ⟨c, d, hmem, hr, hcurrent⟩ := hfield
  have hds : ∀ c e, (c, e) ∈ Sweep.deliveries units → Sweep.isHandled e = true :=
    fun _ _ => Sweep.isHandled_of_mem_deliveries
  constructor
  · obtain ⟨g, hbefore, hlater⟩ := Sweep.acting_compositions.exists_of_mem
      Sweep.building_compositions hds hmem (sound_produced units).closed
    have hevent := Sweep.acting_compositions.grown Sweep.building_compositions c
      (hds _ _ hmem) (hbefore.closed (sound_produced units).closed)
    have hfrom : (declared units).Grown g :=
      (grown_linked units).trans ((grown_marked units).trans
        ((grown_produced units).trans hbefore))
    obtain ⟨hnamed, hscope⟩ := named_of_first hn hfirst hfrom (hevent.trans hlater)
    obtain ⟨s, relation, htype, hcalled, hstep⟩ :=
      exists_step_composeField hr henum hcurrent (hname ▸ hnamed) hscope
    have hstep : (built units).Step relation s n := hlater.step hstep
    refine ⟨s, hlater.isType htype, ?_, ?_⟩
    · exact (hlater.name (Graph.lt_size_of_isType htype)).trans hcalled
    · have htyped := (sound_built units).typed _ hstep
      have hnottype : ((built units).entity n).isType = false := by
        obtain ⟨k, hk⟩ := (sound_built units).kind n (Graph.lt_size_of_isMember hn)
        rw [hk.isMember] at hn
        rw [hk.isType]
        simpa using hn
      cases relation with
      | member => exact Or.inl hstep
      | composing => exact Or.inr hstep
      | extending => exact absurd (htyped.2.symm.trans hnottype) (by decide)
      | implementing => exact absurd (htyped.2.symm.trans hnottype) (by decide)
  · intro hcalled
    obtain ⟨g, hbefore, hlater⟩ := Sweep.acting_roles.exists_of_mem
      Sweep.building_roles hds hmem (sound_linked units).closed
    have hevent := Sweep.acting_roles.grown Sweep.building_roles c
      (hds _ _ hmem) (hbefore.closed (sound_linked units).closed)
    have hfrom : (declared units).Grown g := (grown_linked units).trans hbefore
    obtain ⟨hnamed, hscope⟩ :=
      named_of_first hn hfirst hfrom (hevent.trans (hlater.trans (grown_marked_built units)))
    have heq : Effect.roles c (.field d) g = Effect.markField current r n g := by
      have hout : (g.nodeAt n).isOutOfScope = false := hscope
      simp only [Effect.roles, Effect.rolesOfField, hr, hcurrent, henum,
        target_bind_named (hname ▸ hnamed), hout]
      rfl
    have hlt : n < g.size := (Graph.firstWhere_eq_some hnamed).1
    rw [heq] at hlater
    exact (hlater.trans (grown_marked_built units)).has_of_has
      (has_strategy_markField current hlt hcalled)

/-! ### After detection -/

/-- What detection agrees on keeps names, kinds and scope. -/
theorem extends_of_agree (H : g.Agree Trait.IsGiven h) : g.Extends h := by
  refine ⟨⟨Nat.le_of_eq H.size.symm, fun n _ l hl => H.has ?_ n⟩, fun n _ => H.name n⟩
  unfold Label.isFixed at hl
  split at hl
  · rfl
  · rfl
  · exact absurd hl Bool.false_ne_true

end Analysis

/-- The labels that say something about types: variation points, variants and design patterns. -/
def Label.isTypeLevel : Label → Bool
  | .variationPoint | .variant | .pattern _ => true
  | _ => false

namespace Analysis

variable {units : List SourceUnit} {g : Graph} {n : NodeId}

/-- Where detection finds variation points, if patterns are where they may be. -/
theorem isType_or_of_variationPoint (hg : Levels units g) (hundetected : g.Undetected)
    (hn : ((Rule.applyAll Variation.rules g).entity n).has .variationPoint = true) :
    (g.entity n).isType = true ∨ Mistaken units g n := by
  obtain ⟨-, hreason⟩ := (Variation.has_variationPoint_iff hundetected n).mp hn
  rcases hreason with hinterface | ⟨hclass, -⟩ | ⟨p, hp⟩ | ⟨htype, -⟩
  · exact Or.inl (Sweep.isType_of_has (k := .interfaceType) rfl hinterface)
  · exact Or.inl (Sweep.isType_of_has (k := .classType) rfl hclass)
  · exact (hg.pattern n p hp).imp id (·.1)
  · exact Or.inl htype

/-- Where labels that say something about types are after detection. -/
theorem isType_or_of_isTypeLevel (hg : Levels units g) (hundetected : g.Undetected)
    (thresholds : HotspotThresholds) {l : Label} (hl : l.isTypeLevel = true)
    (hn : ((detected thresholds g).entity n).has l = true) :
    (g.entity n).isType = true ∨
      (Mistaken units g n ∧ l ∈ [Label.variationPoint, .strategy, .decorator]) := by
  have H := agree_detected thresholds g
  have hcold := Hotspot.agree_detected thresholds (Rule.applyAll Variation.rules g)
  match l with
  | .variationPoint =>
      rw [detected, hcold.has (by decide)] at hn
      exact (isType_or_of_variationPoint hg hundetected hn).imp id fun hm => ⟨hm, by decide⟩
  | .variant =>
      rw [detected, hcold.has (by decide)] at hn
      exact Or.inl ((Variation.has_variant hundetected n).mp hn).1
  | .compositionStrategy =>
      rw [detected, hcold.has (by decide)] at hn
      exact Or.inl ((Variation.has_compositionStrategy_iff hundetected n).mp hn).1
  | .factory | .strategy | .template | .decorator =>
      rw [H.has (by decide)] at hn
      refine (hg.pattern n _ hn).imp id fun hm => ⟨hm.1, ?_⟩
      rcases hm.2 with hp | hp
      · cases hp <;> decide
      · cases hp <;> decide

theorem undetected_built (units : List SourceUnit) : (built units).Undetected :=
  (grown_empty_built units).undetected Graph.undetected_empty

/-- A strategy in scope is a variation point. -/
theorem variationPoint_of_strategy (thresholds : HotspotThresholds)
    (hscope : ((built units).entity n).has .outOfScope = false)
    (hstrategy : ((built units).entity n).has .strategy = true) :
    ((detected thresholds (built units)).entity n).has .variationPoint = true := by
  have hcold := Hotspot.agree_detected thresholds (Rule.applyAll Variation.rules (built units))
  rw [detected, hcold.has (by decide)]
  exact (Variation.has_variationPoint_iff (undetected_built units) n).mpr
    ⟨hscope, Or.inr (Or.inr (Or.inl ⟨.strategy, hstrategy⟩))⟩

/-- Facts about types are on types and on mistaken members, and some members are mistaken. -/
structure TypeLevel (units : List SourceUnit) (g : Graph) : Prop where
  /-- Types are composed, and of types, but for mistaken members. -/
  composing : ∀ s t, g.Step .composing s t → (g.entity s).isType = true ∧
    ((g.entity t).isType = true ∨ Mistaken units g t)
  /-- Labels that say something about types are on types; a mistaken member may be labelled as a
  strategy, a decorator and, for that, a variation point. -/
  label : ∀ n l, l.isTypeLevel = true → (g.entity n).has l = true →
    (g.entity n).isType = true ∨
      (Mistaken units g n ∧ l ∈ [Label.variationPoint, .strategy, .decorator])
  /-- A member that is the first node with the erased name of a field's type is mistaken, and
  linked as if it were a type unless it is a member of the type that has the field. -/
  taken : ∀ current r, HasField units current r → r.isEnum = false →
    ∀ n, (g.entity n).isMember = true → (∀ m < n, (g.entity m).name ≠ (g.entity n).name) →
      (g.entity n).name = r.erasure →
      (∃ s, (g.entity s).isType = true ∧ (g.entity s).name = current.qualified ∧
        (g.Step .member s n ∨ g.Step .composing s n)) ∧
      (Text.contains r.simple "Strategy" = true →
        (g.entity n).has .strategy = true ∧ (g.entity n).has .variationPoint = true)

/-- **Where facts about types are.** After an analysis of any units, with any thresholds, types are
composed and labelled, and nothing else is but the members that are mistaken for types. -/
theorem run_typeLevel (thresholds : HotspotThresholds) (units : List SourceUnit) :
    ∃ summary g, Yields (run thresholds units) .empty summary g ∧ TypeLevel units g := by
  obtain ⟨summary, hyields⟩ := yields_run_built units thresholds
  refine ⟨summary, _, hyields, ?_⟩
  have H := agree_detected thresholds (built units)
  have hlevels := levels_built units
  have hextends := extends_of_agree H
  have htype : ∀ n, ((detected thresholds (built units)).entity n).isType =
      ((built units).entity n).isType := H.isType rfl rfl
  refine ⟨fun s t hstep => ?_, fun n l hl hn => ?_,
    fun current r hfield henum n hn hfirst hname => ?_⟩
  · rw [H.step] at hstep
    refine ⟨?_, (hlevels.composing s t hstep).extends hextends⟩
    rw [htype]
    exact ((sound_built units).typed _ hstep).isType
  · rw [htype]
    exact (isType_or_of_isTypeLevel hlevels (undetected_built units) thresholds hl hn).imp id
      fun hm => ⟨hm.1.extends hextends, hm.2⟩
  · simp only [H.name] at hfirst hname
    have hmember : ((built units).entity n).isMember = true := by
      rwa [Entity.isMember, H.has (l := .method) rfl, H.has (l := .constructor) rfl] at hn
    obtain ⟨hlinked, hstrategy⟩ := taken_of_hasField hfield henum hmember hfirst hname
    have hscope := (named_of_first hmember hfirst (grown_declared_built units) .refl).2
    simp only [htype, H.name, H.step]
    exact ⟨hlinked, fun hcalled => ⟨(H.has (l := .strategy) rfl n).trans (hstrategy hcalled),
      variationPoint_of_strategy thresholds hscope (hstrategy hcalled)⟩⟩

/-- A nested class with a constructor, and a field whose type is not found but has the same name. -/
def strangers : List SourceUnit :=
  Project.units [
    .read "A.java" "package p; class A { static class ExtStrategy { ExtStrategy() {} } }",
    .read "B.java" "package q; import lib.*; class B { ExtStrategy s; }"]

/-- A constructor is a strategy and a variation point, and a class is composed of it. -/
theorem run_strangers : ∃ summary g, Yields (run {} strangers) .empty summary g ∧
    (g.entity 2).has .constructor = true ∧ g.Step .composing 3 2 ∧
    (g.entity 2).has .strategy = true ∧ (g.entity 2).has .variationPoint = true := by
  obtain ⟨summary, hyields⟩ := yields_run_built strangers {}
  have H := agree_detected {} (built strangers)
  obtain ⟨hedges, hconstructor, hstrategy, hscope⟩ :
      (built strangers).edges = #[⟨1, .member, 2⟩, ⟨3, .composing, 2⟩] ∧
      ((built strangers).entity 2).has .constructor = true ∧
      ((built strangers).entity 2).has .strategy = true ∧
      ((built strangers).entity 2).has .outOfScope = false := by decide +kernel
  have hcomposed : (⟨3, .composing, 2⟩ : Edge) ∈ (built strangers).edges := by simp [hedges]
  exact ⟨summary, _, hyields, (H.has (l := .constructor) rfl 2).trans hconstructor,
    H.step.mpr hcomposed, (H.has (l := .strategy) rfl 2).trans hstrategy,
    variationPoint_of_strategy {} hscope hstrategy⟩

end Analysis

end Variability
