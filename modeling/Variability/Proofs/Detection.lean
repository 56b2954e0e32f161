import Variability.Variation.Point
import Variability.Proofs.Rule

/-!
# Detection as a sequence of rules

On an available store the detection of variation points and variants is the sequence of fourteen
rules `Variation.rules`, each applied to the graph that the rules before it have left. Nine of
them are metrics, which set a count, and five give a label.

The metrics read only what no rule writes (`Trait.IsGiven`), so their order does not matter. The
labels are read by later rules, and their order does.

## Main results

* `Variation.applies_detect`: detection applies the rules, and does not fail.
* `Variation.agree_detected`: detection changes nothing that was given.
* `Variation.int?_detected`: what each class has as a metric after detection.
-/

namespace Variability

open Session

/-! ### What is given and what is found -/

/-- The labels that detection gives. -/
def Label.isFinding : Label → Bool
  | .variationPoint | .variant | .methodLevelPoint | .hotspot | .dense
  | .compositionStrategy => true
  | _ => false

/-- The traits that nodes have before detection and keep: the labels that it does not give. -/
def Trait.IsGiven : Trait → Prop
  | .label l => l.isFinding = false
  | .property _ => False

instance : DecidablePred Trait.IsGiven
  | .label l => inferInstanceAs (Decidable (l.isFinding = false))
  | .property _ => .isFalse id

/-- The traits that setting a property leaves alone. -/
def Trait.IsLabel : Trait → Prop
  | .label _ => True
  | .property _ => False

/-- Setting a property keeps all labels. -/
theorem Graph.Agree.put {g h : Graph} (H : g.Agree Trait.IsLabel h) (id : NodeId)
    (p : Property) (v : Value) : g.Agree Trait.IsLabel (h.put id p v) := by
  have hput : h.Agree Trait.IsLabel (h.putAll p (fun _ => v) [id]) :=
    Rule.agree_apply (.put p (fun _ => [id]) fun _ _ => v) not_false h
  exact H.trans hput

/-! ### Loops that set a property -/

/-- A loop over nodes that sets a property of those with a condition. The body may read labels,
names and edges, which the loop does not change. -/
theorem Session.yields_putLoop {g : Graph} {ids : List NodeId} {p : Property}
    {v : NodeId → Value} {c : NodeId → Bool} {body : Node → Session Unit}
    (hbody : ∀ id ∈ ids, ∀ h, g.Agree Trait.IsLabel h →
      Yields (body (g.nodeAt id)) h () (if c id then h.put id p (v id) else h)) :
    Yields ((ids.map g.nodeAt).forM body) g () (g.putAll p v (ids.filter c)) := by
  rw [Graph.putAll, List.foldl_filter]
  have hloop : Yields ((ids.map g.nodeAt).forM body) g ()
      ((ids.map g.nodeAt).foldl (fun h n => if c n.id then h.put n.id p (v n.id) else h) g) := by
    refine Yields.forM (g.Agree Trait.IsLabel) (fun n hn h hh => ?_) (Graph.Agree.refl _ g)
    obtain ⟨id, hid, rfl⟩ := List.mem_map.mp hn
    refine ⟨hbody id hid h hh, ?_⟩
    by_cases hc : c id = true
    · simp only [Graph.id_nodeAt, hc, if_true]
      exact hh.put id p (v id)
    · simp only [Graph.id_nodeAt, hc]
      exact hh
  rw [List.foldl_map] at hloop
  exact hloop

/-- A loop over nodes that sets a property of each. -/
theorem Session.yields_putNodes {g : Graph} {ids : List NodeId} {p : Property}
    {v : NodeId → Value} {body : Node → Session Unit}
    (hbody : ∀ id ∈ ids, ∀ h, g.Agree Trait.IsLabel h →
      Yields (body (g.nodeAt id)) h () (h.put id p (v id))) :
    Yields ((ids.map g.nodeAt).forM body) g () (g.putAll p v ids) := by
  have hloop := yields_putLoop (c := fun _ => true) hbody
  rwa [List.filter_eq_self.mpr fun _ _ => rfl] at hloop

/-- The nodes that a condition on labels accepts. -/
@[simp] theorem NodeFilter.accepts_labelled (l : Label) (e : Entity) :
    (NodeFilter.labelled l).accepts e = e.has l := by
  simp [NodeFilter.labelled, NodeFilter.accepts]

@[simp] theorem NodeFilter.accepts_types (e : Entity) :
    NodeFilter.types.accepts e = e.isType := by
  simp [NodeFilter.types, NodeFilter.accepts, Entity.isType]

@[simp] theorem NodeFilter.accepts_anyNode (e : Entity) :
    NodeFilter.anyNode.accepts e = true := by
  simp [NodeFilter.anyNode, NodeFilter.accepts]

/-- The nodes with a label. -/
theorem Session.yields_nodesLabelled (g : Graph) (l : Label) :
    Yields (nodesMatching (.labelled l)) g ((g.idsWhere (·.has l)).map g.nodeAt) g := by
  have h := yields_nodesMatching (g := g) (.labelled l)
  rwa [show (NodeFilter.labelled l).accepts = (·.has l) from
    funext (NodeFilter.accepts_labelled l)] at h

/-- A loop over all nodes that treats those with a condition is the loop over these. -/
theorem Session.nodes_forM_ite (g : Graph) (c : Entity → Bool) (f : NodeId → Session Unit) :
    (((List.range g.size).map g.nodeAt).forM fun n =>
      if c n.toEntity then f n.id else pure ()) =
      ((g.idsWhere c).map g.nodeAt).forM fun n => f n.id := by
  rw [forM_ite]
  simp only [Bool.decide_eq_true]
  rw [← Graph.nodes_eq, Graph.filter_nodes g c]

/-- The numbers of nodes by number. -/
theorem Graph.map_id_nodeAt (g : Graph) (ids : List NodeId) :
    (ids.map g.nodeAt).map (·.id) = ids := by
  rw [List.map_map]
  exact List.map_id ids

/-- Labelling the nodes that meet a condition. -/
theorem Session.yields_labelWhere {g : Graph} (l : Label) (c : Entity → Bool) :
    Yields (do (← nodes).forM fun n => if c n.toEntity then addLabel n.id l else pure ())
      g () (g.labelAll l (g.idsWhere c)) := by
  refine yields_nodes.bind ?_
  rw [nodes_forM_ite g c fun id => addLabel id l]
  have hlabel := yields_labelEach (g := g) ((g.idsWhere c).map g.nodeAt) (·.id) l ?_
  · rw [Graph.map_id_nodeAt] at hlabel
    exact hlabel
  · intro n hn
    obtain ⟨id, hid, rfl⟩ := List.mem_map.mp hn
    exact (Graph.mem_idsWhere.mp hid).1

/-! ### Metrics -/

namespace Rule

/-- The rule that sets a count of every class. -/
def perClass (p : Property) (count : Graph → NodeId → Nat) : Rule :=
  put p (fun g => g.idsWhere (·.has .classType)) fun g id => .ofCount (count g id)

/-- The number of overloaded method names of each class. -/
def methodPoints : Rule :=
  perClass .methodPoints fun g id =>
    (Metric.overloads (NameCount.tally (g.memberNames id .method))).length

/-- The number of overloaded methods of each class. -/
def methodVariants : Rule :=
  perClass .methodVariants fun g id =>
    (Metric.overloads (NameCount.tally (g.memberNames id .method))).foldl (· + ·) 0

/-- Whether a class has more than one constructor, as a number. -/
def constructorPoints : Rule :=
  perClass .constructorPoints fun g id =>
    if g.memberCount id [.constructor] > 1 then 1 else 0

/-- The number of constructors of a class, if there is more than one. -/
def constructorVariants : Rule :=
  perClass .constructorVariants fun g id =>
    if g.memberCount id [.constructor] > 1 then g.memberCount id [.constructor] else 0

/-- The number of direct variants of each type. -/
def typeVariants : Rule :=
  put .typeVariants (fun g => g.idsWhere (·.isType)) fun g id => .ofCount (g.variantCount id)

/-- The number of public members of one kind of each public class, and zero for other classes. -/
def publicMembers (p : Property) (kind : Label) : Rule :=
  perClass p fun g id =>
    if (g.entity id).has .exposed then g.memberCount id [kind, .exposed] else 0

/-- The number of types that a node is composed of, if there are any. -/
def compositions : Rule :=
  put .compositions
    (fun g => (List.range g.size).filter fun id => !(g.targets [.composing] id).isEmpty)
    fun g id => .ofCount (g.targets [.composing] id).length

/-- The number of methods of each class. -/
def allMethods : Rule := perClass .allMethods fun g id => g.memberCount id [.method]

/-! ### Labels -/

/-- The rule that labels the nodes in scope that meet a condition. -/
def inScope (l : Label) (c : Entity → Bool) : Rule :=
  mark l fun g => g.idsWhere fun e => !e.isOutOfScope && c e

/-- The variation points. -/
def points : Rule := inScope .variationPoint Variation.isPoint

/-- The variation points on the level of methods. -/
def methodLevelPoints : Rule := inScope .methodLevelPoint Variation.isMethodLevelPoint

/-- The types below a variation point. -/
def variants : Rule :=
  mark .variant fun g => (g.edgesOf Variation.variantPattern).map (·.target)

/-- The types with several variants that types are composed of. -/
def compositionStrategies : Rule :=
  mark .compositionStrategy fun g =>
    ((g.edgesOf Variation.compositionPattern).filter fun e =>
      decide ((g.entity e.target).count .typeVariants > 1)).map (·.target)

/-- Both ends of the compositions between variants. -/
def dense : Rule :=
  mark .dense fun g => (g.edgesOf Variation.densePattern).flatMap fun e => [e.source, e.target]

@[simp] theorem trait_methodPoints : methodPoints.trait = .property .methodPoints := rfl

@[simp] theorem trait_methodVariants : methodVariants.trait = .property .methodVariants := rfl

@[simp] theorem trait_constructorPoints :
    constructorPoints.trait = .property .constructorPoints := rfl

@[simp] theorem trait_constructorVariants :
    constructorVariants.trait = .property .constructorVariants := rfl

@[simp] theorem trait_typeVariants : typeVariants.trait = .property .typeVariants := rfl

@[simp] theorem trait_publicMembers (p : Property) (kind : Label) :
    (publicMembers p kind).trait = .property p := rfl

@[simp] theorem trait_compositions : compositions.trait = .property .compositions := rfl

@[simp] theorem trait_allMethods : allMethods.trait = .property .allMethods := rfl

@[simp] theorem trait_points : points.trait = .label .variationPoint := rfl

@[simp] theorem trait_methodLevelPoints :
    methodLevelPoints.trait = .label .methodLevelPoint := rfl

@[simp] theorem trait_variants : variants.trait = .label .variant := rfl

@[simp] theorem trait_compositionStrategies :
    compositionStrategies.trait = .label .compositionStrategy := rfl

@[simp] theorem trait_dense : dense.trait = .label .dense := rfl

end Rule

/-- The rules of detection, in their order. -/
def Variation.rules : List Rule :=
  [.methodPoints, .methodVariants, .constructorPoints, .constructorVariants, .typeVariants,
    .points, .methodLevelPoints, .variants, .publicMembers .publicMethods .method,
    .publicMembers .publicConstructors .constructor, .compositions, .allMethods,
    .compositionStrategies, .dense]

/-- On a closed graph the program applies the rules in turn. -/
def Session.Applies (x : Session Unit) (rules : List Rule) : Prop :=
  ∀ ⦃g : Graph⦄, g.Closed → Yields x g () (Rule.applyAll rules g)

/-- A program that applies one rule. -/
theorem Session.Applies.single {x : Session Unit} {r : Rule}
    (hx : ∀ ⦃g : Graph⦄, g.Closed → Yields x g () (r.apply g)) : Applies x [r] :=
  hx

/-- A program that applies one rule and then others. The graph between them is closed. -/
theorem Session.Applies.cons {x y : Session Unit} {r : Rule} {rules : List Rule}
    (hx : ∀ ⦃g : Graph⦄, g.Closed → Yields x g () (r.apply g)) (hy : Applies y rules) :
    Applies (do x; y) (r :: rules) := by
  intro g hg
  exact (hx hg).bind (hy (Rule.closed_applyAll hg [r]))

/-! ### The metrics of a session -/

namespace Metric

variable {g : Graph}

/-- The number of neighbours with some labels. -/
theorem yields_countMembers (hg : g.Closed) {id : NodeId} (h : id < g.size)
    (labels : List Label) :
    Yields (countMembers id labels) g (g.memberCount id labels) g := by
  have hcount := (yields_children hg h []).bind_pure
    fun ns => ns.countP fun n => labels.all n.has
  rw [List.countP_map] at hcount
  exact hcount

/-- A metric of classes applies its rule, if what it counts does not depend on properties. -/
theorem yields_forClasses {p : Property} {f : Node → Session Nat}
    {count : Graph → NodeId → Nat}
    (hf : ∀ id < g.size, ∀ h, g.Agree Trait.IsLabel h →
      Yields (f (g.nodeAt id)) h (count g id) h) :
    Yields (forClasses p f) g () ((Rule.perClass p count).apply g) := by
  refine (yields_nodesLabelled g .classType).bind (yields_putNodes fun id hid h hh => ?_)
  have hlt : id < g.size := (Graph.mem_idsWhere.mp hid).1
  exact (hf id hlt h hh).bind (yields_setProperty (hh.size ▸ hlt) p _)

/-- The overloads of a class, and what is computed from them. -/
theorem yields_overloads (hg : g.Closed) (f : List Nat → Nat) :
    ∀ id < g.size, ∀ h, g.Agree Trait.IsLabel h →
      Yields (do return f (overloads (← countSameName id .method))) h
        (f (overloads (NameCount.tally (g.memberNames id .method)))) h := by
  intro id hlt h hh
  have hcount := yields_countSameName (hh.closed hg) (hh.size ▸ hlt) .method
  rw [hh.memberNames trivial] at hcount
  exact hcount.bind_pure fun counts => f (overloads counts)

/-- The members of a class with some labels, while properties are set. -/
theorem yields_countMembers_of_agree (hg : g.Closed) (labels : List Label) :
    ∀ id < g.size, ∀ h, g.Agree Trait.IsLabel h →
      Yields (countMembers id labels) h (g.memberCount id labels) h := by
  intro id hlt h hh
  have hcount := yields_countMembers (hh.closed hg) (hh.size ▸ hlt) labels
  rwa [hh.memberCount fun l _ => trivial] at hcount

theorem yields_methodPoints (hg : g.Closed) :
    Yields methodPoints g () (Rule.methodPoints.apply g) :=
  yields_forClasses (yields_overloads hg List.length)

theorem yields_methodVariants (hg : g.Closed) :
    Yields methodVariants g () (Rule.methodVariants.apply g) :=
  yields_forClasses (yields_overloads hg fun counts => counts.foldl (· + ·) 0)

theorem yields_constructorPoints (hg : g.Closed) :
    Yields constructorPoints g () (Rule.constructorPoints.apply g) :=
  yields_forClasses fun id hlt h hh =>
    (yields_countMembers_of_agree hg [.constructor] id hlt h hh).bind_pure
      fun count => if count > 1 then 1 else 0

theorem yields_constructorVariants (hg : g.Closed) :
    Yields constructorVariants g () (Rule.constructorVariants.apply g) :=
  yields_forClasses fun id hlt h hh =>
    (yields_countMembers_of_agree hg [.constructor] id hlt h hh).bind_pure
      fun count => if count > 1 then count else 0

theorem yields_allMethods (hg : g.Closed) :
    Yields allMethods g () (Rule.allMethods.apply g) :=
  yields_forClasses (yields_countMembers_of_agree hg [.method])

/-- Public members of one kind. -/
theorem yields_publicMembers (hg : g.Closed) (p : Property) (kind : Label) :
    Yields (forClasses p (publicMembers kind)) g () ((Rule.publicMembers p kind).apply g) := by
  refine yields_forClasses fun id hlt h hh => ?_
  show Yields (if (g.entity id).has .exposed = true then countMembers id [kind, .exposed]
    else pure 0) h _ h
  split
  · exact yields_countMembers_of_agree hg [kind, .exposed] id hlt h hh
  · exact Yields.pure _ _

/-- Direct variants of types. -/
theorem yields_typeVariants (hg : g.Closed) :
    Yields typeVariants g () (Rule.typeVariants.apply g) := by
  have htypes := yields_nodesMatching (g := g) .types
  rw [show NodeFilter.types.accepts = (·.isType) from funext NodeFilter.accepts_types] at htypes
  refine htypes.bind (yields_putNodes fun id hid h hh => ?_)
  have hlt : id < h.size := hh.size ▸ (Graph.mem_idsWhere.mp hid).1
  have hcount := yields_variantCount (hh.closed hg) hlt
  rw [hh.variantCount trivial] at hcount
  exact hcount.bind (yields_setProperty hlt _ _)

/-- Compositions of nodes. -/
theorem yields_compositions (hg : g.Closed) :
    Yields compositions g () (Rule.compositions.apply g) := by
  refine yields_nodes.bind (yields_putLoop fun id hid h hh => ?_)
  have hlt : id < h.size := hh.size ▸ List.mem_range.mp hid
  have hchildren := yields_children (hh.closed hg) hlt [.composing]
  rw [hh.targets] at hchildren
  refine hchildren.bind ?_
  cases htargets : g.targets [.composing] id with
  | nil => exact Yields.pure _ _
  | cons m ms =>
      have hset := yields_setProperty hlt .compositions (.ofCount (m :: ms).length)
      simpa [htargets] using hset

end Metric

/-! ### The labels of a session -/

namespace Variation

variable {g : Graph}

/-- Labelling nodes in scope. -/
theorem yields_labelInScope (l : Label) (c : Entity → Bool) :
    Yields (labelInScope l c) g () ((Rule.inScope l c).apply g) :=
  yields_labelWhere l fun e => !e.isOutOfScope && c e

/-- Labelling the targets of the edges of a pattern that meet a condition. -/
theorem yields_labelTargets (hg : g.Closed) (pattern : HopPattern) (c : Hop → Prop)
    [DecidablePred c] (l : Label) :
    Yields (do
      (← runQuery pattern).forM fun h =>
        if c h then addLabel h.target.id l else pure ()) g ()
      (g.labelAll l
        (((g.edgesOf pattern).filter fun e => decide (c (g.hopAt e))).map (·.target))) := by
  refine (yields_runQuery hg pattern).bind ?_
  rw [forM_ite, Graph.hopsOf, List.filter_map]
  have hlabel := yields_labelEach (g := g)
    (((g.edgesOf pattern).filter fun e => decide (c (g.hopAt e))).map g.hopAt) (·.target.id) l ?_
  · rw [List.map_map] at hlabel
    exact hlabel
  · intro h hh
    obtain ⟨e, he, rfl⟩ := List.mem_map.mp hh
    exact (hg.lt_of_mem_edgesOf (List.mem_filter.mp he).1).2

theorem yields_labelVariants (hg : g.Closed) :
    Yields labelVariants g () (Rule.variants.apply g) := by
  have h := yields_labelTargets hg variantPattern (fun _ => True) .variant
  simp only [if_true, decide_true] at h
  rw [List.filter_eq_self.mpr fun _ _ => rfl] at h
  exact h

theorem yields_labelCompositionStrategies (hg : g.Closed) :
    Yields labelCompositionStrategies g () (Rule.compositionStrategies.apply g) :=
  yields_labelTargets hg compositionPattern (fun h => h.target.count .typeVariants > 1)
    .compositionStrategy

/-- Labelling both ends of the edges of a pattern. -/
theorem yields_labelDense (hg : g.Closed) :
    Yields labelDense g () (Rule.dense.apply g) := by
  refine (yields_runQuery hg densePattern).bind ?_
  have hloop : Yields ((g.hopsOf densePattern).forM fun h => do
      addLabel h.source.id .dense
      addLabel h.target.id .dense) g ()
      ((g.hopsOf densePattern).foldl
        (fun k h => (k.label h.source.id [.dense]).label h.target.id [.dense]) g) := by
    refine Yields.forM (fun k => k.size = g.size) (fun h hh k hsize => ⟨?_, ?_⟩) rfl
    · obtain ⟨e, he, rfl⟩ := List.mem_map.mp hh
      obtain ⟨hsource, htarget⟩ := hg.lt_of_mem_edgesOf he
      refine (yields_addLabel (hsize ▸ hsource) _).bind (yields_addLabel ?_ _)
      rw [Graph.size_label, hsize]
      exact htarget
    · rw [Graph.size_label, Graph.size_label, hsize]
  have hfold : (g.hopsOf densePattern).foldl
      (fun k h => (k.label h.source.id [.dense]).label h.target.id [.dense]) g =
      Rule.dense.apply g := by
    rw [Graph.hopsOf, List.foldl_map]
    show _ = g.labelAll .dense ((g.edgesOf densePattern).flatMap fun e => [e.source, e.target])
    rw [Graph.labelAll, List.foldl_flatMap]
    rfl
  rw [hfold] at hloop
  exact hloop

/-- **Detection applies its rules.** On a closed graph every step succeeds, and the graph that is
left is that of the rules applied in turn. -/
theorem applies_detect : Applies detect rules :=
  .cons (fun _ => Metric.yields_methodPoints) <|
  .cons (fun _ => Metric.yields_methodVariants) <|
  .cons (fun _ => Metric.yields_constructorPoints) <|
  .cons (fun _ => Metric.yields_constructorVariants) <|
  .cons (fun _ => Metric.yields_typeVariants) <|
  .cons (fun _ _ => yields_labelInScope .variationPoint isPoint) <|
  .cons (fun _ _ => yields_labelInScope .methodLevelPoint isMethodLevelPoint) <|
  .cons (fun _ => yields_labelVariants) <|
  .cons (fun _ hg => Metric.yields_publicMembers hg .publicMethods .method) <|
  .cons (fun _ hg => Metric.yields_publicMembers hg .publicConstructors .constructor) <|
  .cons (fun _ => Metric.yields_compositions) <|
  .cons (fun _ => Metric.yields_allMethods) <|
  .cons (fun _ => yields_labelCompositionStrategies) <|
  .single fun _ => yields_labelDense

/-! ### What the rules read and write -/

/-- Each trait is written by one rule. -/
theorem nodup_traits : (rules.map Rule.trait).Nodup := by
  simp [rules]

/-- No rule writes what was given. -/
theorem not_isGiven_of_mem_rules : ∀ r ∈ rules, ¬ r.trait.IsGiven := by
  simp [rules, Trait.IsGiven, Label.isFinding]

/-- The graph when `k` rules have been applied. -/
def stage (k : Nat) (g : Graph) : Graph := Rule.applyAll (rules.take k) g

/-- At every stage, what was given is as before. -/
theorem agree_stage (k : Nat) (g : Graph) : g.Agree Trait.IsGiven (stage k g) :=
  Rule.agree_applyAll (fun r hr => not_isGiven_of_mem_rules r (List.mem_of_mem_take hr)) g

/-- The five rules before the first label set properties only. -/
theorem agree_measured (g : Graph) : g.Agree Trait.IsLabel (stage 5 g) :=
  Rule.agree_applyAll (by simp [rules, Trait.IsLabel]) g

/-- A label of detection: a node has it in the end if it had it before, or was selected by the rule
for it in its turn. -/
theorem has_detected {k : Nat} {l : Label} {selects : Graph → List NodeId}
    (hk : rules[k]? = some (.mark l selects)) (g : Graph) (n : NodeId) :
    ((Rule.applyAll rules g).entity n).has l = true ↔
      (g.entity n).has l = true ∨ (n ∈ selects (stage k g) ∧ n < g.size) :=
  Rule.has_applyAll_mark nodup_traits hk g n

/-- Detection changes nothing that was given. -/
theorem agree_detected (g : Graph) : g.Agree Trait.IsGiven (Rule.applyAll rules g) :=
  Rule.agree_applyAll not_isGiven_of_mem_rules g

end Variation

namespace Rule

/-- A count of classes reads what its counting reads, and the classes. -/
theorem reads_perClass {p : Property} {count : Graph → NodeId → Nat}
    (hcount : ∀ g h, g.Agree Trait.IsGiven h → ∀ id, count h id = count g id) :
    (perClass p count).Reads Trait.IsGiven := by
  intro g h H
  have hclass : Trait.IsGiven (.label .classType) := rfl
  exact ⟨H.idsWhere (H.has hclass), fun id => congrArg Value.ofCount (hcount g h H id)⟩

theorem reads_methodPoints : methodPoints.Reads Trait.IsGiven :=
  reads_perClass fun _ _ H id => by rw [H.memberNames (l := .method) rfl]

theorem reads_methodVariants : methodVariants.Reads Trait.IsGiven :=
  reads_perClass fun _ _ H id => by rw [H.memberNames (l := .method) rfl]

theorem reads_constructorPoints : constructorPoints.Reads Trait.IsGiven :=
  reads_perClass fun _ _ H id => by
    rw [H.memberCount (by simp [Trait.IsGiven, Label.isFinding])]

theorem reads_constructorVariants : constructorVariants.Reads Trait.IsGiven :=
  reads_perClass fun _ _ H id => by
    rw [H.memberCount (by simp [Trait.IsGiven, Label.isFinding])]

theorem reads_allMethods : allMethods.Reads Trait.IsGiven :=
  reads_perClass fun _ _ H id => H.memberCount (by simp [Trait.IsGiven, Label.isFinding]) id

theorem reads_publicMembers (p : Property) (kind : EntityKind) :
    (publicMembers p (.kind kind)).Reads Trait.IsGiven :=
  reads_perClass fun _ _ H id => by
    rw [H.has (l := .exposed) rfl, H.memberCount (by simp [Trait.IsGiven, Label.isFinding])]

theorem reads_typeVariants : typeVariants.Reads Trait.IsGiven := by
  intro g h H
  exact ⟨H.idsWhere (H.isType rfl rfl), fun id => congrArg Value.ofCount (H.variantCount rfl id)⟩

theorem reads_compositions : compositions.Reads Trait.IsGiven := by
  intro g h H
  constructor
  · show (List.range h.size).filter _ = (List.range g.size).filter _
    rw [H.size]
    exact List.filter_congr fun id _ => by rw [H.targets]
  · exact fun id => congrArg (fun ids => Value.ofCount ids.length) (H.targets [.composing] id)

/-- A metric that reads what was given, and that one rule of a sequence sets: its value does not
depend on the turn of the rule. -/
theorem property?_applyAll_metric {rules : List Rule} (hnodup : (rules.map trait).Nodup)
    (hgiven : ∀ r ∈ rules, ¬ r.trait.IsGiven) {k : Nat} {p : Property}
    {selects : Graph → List NodeId} {value : Graph → NodeId → Value}
    (hk : rules[k]? = some (put p selects value))
    (hreads : (put p selects value).Reads Trait.IsGiven) (g : Graph) (id : NodeId) :
    ((applyAll rules g).entity id).property? p =
      if id ∈ selects g ∧ id < g.size then some (value g id)
      else (g.entity id).property? p := by
  have H : g.Agree Trait.IsGiven (applyAll (rules.take k) g) :=
    agree_applyAll (fun r hr => hgiven r (List.mem_of_mem_take hr)) g
  obtain ⟨hselects, hvalue⟩ := hreads _ _ H
  rw [property?_applyAll_put hnodup hk, hselects, hvalue]

end Rule

/-- After detection every class has what a rule counts of classes. -/
theorem Variation.int?_detected {g : Graph} {k : Nat} {p : Property}
    {count : Graph → NodeId → Nat} (hk : rules[k]? = some (.perClass p count))
    (hreads : (Rule.perClass p count).Reads Trait.IsGiven) {n : NodeId}
    (hn : (g.entity n).has .classType = true) :
    ((Rule.applyAll rules g).entity n).int? p = some (.ofNat (count g n)) := by
  have hlt := Graph.lt_size_of_has hn
  have hmetric := Rule.property?_applyAll_metric nodup_traits not_isGiven_of_mem_rules hk hreads g n
  rw [if_pos ⟨Graph.mem_idsWhere.mpr ⟨hlt, hn⟩, hlt⟩] at hmetric
  rw [Entity.int?, hmetric]
  rfl

end Variability
