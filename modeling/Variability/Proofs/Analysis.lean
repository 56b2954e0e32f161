import Variability.Analysis
import Variability.Proofs.Sweeps
import Variability.Proofs.WellFormed
import Variability.Proofs.Hotspots
import Variability.Proofs.LabelMeaning

/-!
# Whole analyses

On an available store an analysis of any source units succeeds. Its five sweeps let the graph grow,
and the two detections then apply their rules to what has grown (`Analysis.yields_run_of_closed`).
What holds of every graph that an analysis leaves follows from what growth and rules preserve.

## Main results

* `Analysis.yields_run_of_closed`: the graph that an analysis leaves.
* `Graph.Grown.undetected`: the sweeps leave nothing that looks like an earlier detection.
* `Analysis.run_wellFormed`: every analysis leaves a well-formed graph.
-/

namespace Variability

open Session

/-! ### Before detection -/

namespace Graph

variable {g h : Graph}

/-- What sweeps write is not what detection writes. -/
theorem not_mem_of_isNote {ls : List Label}
    (hls : ∀ l ∈ ls, l.isNote = true ∨ l = .outOfScope) :
    ∀ l ∈ Variation.labels, l ∉ ls := by
  have hboth : ∀ l ∈ Variation.labels, l.isNote = false ∧ l ≠ .outOfScope := by decide
  intro l hl hmem
  obtain ⟨hnote, hscope⟩ := hboth l hl
  rcases hls l hmem with h | h
  · rw [hnote] at h
    exact Bool.false_ne_true h
  · exact hscope h

/-- The labels of a new node are none that detection writes. -/
theorem not_mem_kind_cons {kind : EntityKind} {ls : List Label}
    (hls : ∀ l ∈ ls, l.isNote = true ∨ l = .outOfScope) :
    ∀ l ∈ Variation.labels, l ∉ Label.kind kind :: ls := by
  intro l hl hmem
  rcases List.mem_cons.mp hmem with rfl | hmem
  · simp [Variation.labels] at hl
  · exact not_mem_of_isNote hls l hl hmem

/-- A new node has no properties. -/
theorem property?_addNode (g : Graph) (name : String) (ls : List Label) (n : NodeId)
    (p : Property) : ((g.addNode name ls).entity n).property? p = (g.entity n).property? p := by
  rw [entity_addNode]
  split
  · rename_i hn
    rw [entity_of_le (Nat.le_of_eq hn.symm)]
    rfl
  · rfl

/-- Sweeps set no properties. -/
theorem Grows.property? (H : g.Grows h) (n : NodeId) (p : Property) :
    (h.entity n).property? p = (g.entity n).property? p := by
  cases H with
  | type => exact property?_addNode ..
  | member => exact property?_addNode ..
  | note =>
      rw [label, entity_update]
      split
      · exact Entity.property?_label ..
      · rfl
  | inherit => rfl
  | compose => rfl

theorem Grown.property? (H : g.Grown h) (n : NodeId) (p : Property) :
    (h.entity n).property? p = (g.entity n).property? p := by
  induction H with
  | refl => rfl
  | tail _ hstep ih => exact (hstep.property? n p).trans ih

theorem Grows.undetected (H : g.Grows h) (hg : g.Undetected) : h.Undetected := by
  refine fun n => ⟨?_, fun p => (H.property? n p).trans ((hg n).property? p)⟩
  cases H with
  | type _ _ hls => exact (hg.addNode _ (not_mem_kind_cons hls) n).has
  | member _ _ hls => exact (hg.addNode _ (not_mem_kind_cons fun l hl => Or.inl (hls l hl)) n).has
  | note hls =>
      intro l hl
      rw [has_label_of_not_mem (not_mem_of_isNote (fun l hl => Or.inl (hls l hl)) l hl)]
      exact (hg n).has l hl
  | inherit => exact (hg n).has
  | compose => exact (hg n).has

/-- **The sweeps leave nothing that looks like an earlier detection.** -/
theorem Grown.undetected (H : g.Grown h) (hg : g.Undetected) : h.Undetected := by
  induction H with
  | refl => exact hg
  | tail _ hstep ih => exact hstep.undetected ih

end Graph

/-- Detection finds variation points of either level in scope only. -/
theorem Variation.inScope_of_has {g : Graph} {k : Nat} {l : Label} {c : Entity → Bool}
    (hk : rules[k]? = some (.inScope l c)) {n : NodeId} (hn : (g.entity n).has l = false)
    (hhas : ((Rule.applyAll rules g).entity n).has l = true) :
    (g.entity n).has .outOfScope = false := by
  obtain ⟨hmem, -⟩ := (has_newly_detected hk hn).mp hhas
  obtain ⟨-, hselected⟩ := Graph.mem_idsWhere.mp hmem
  have hscope := ((Bool.and_eq_true _ _).mp hselected).1
  rw [Entity.isOutOfScope, (agree_stage k g).has (l := .outOfScope) rfl] at hscope
  simpa using hscope

/-! ### Statistics -/

/-- The totals of a graph. -/
def Graph.statistics (g : Graph) : Statistics :=
  .ofNodes ((g.idsWhere (·.has .classType)).map g.nodeAt)
    (g.idsWhere (·.has .variationPoint)).length
    (g.idsWhere fun e => e.has .variant && !e.has .variationPoint).length

/-- Statistics are collected without a change to the graph. -/
theorem Statistics.yields_collect (g : Graph) : Yields collect g g.statistics g := by
  have hvariants : ((NodeFilter.labelled .variant).without .variationPoint).accepts =
      fun e : Entity => e.has .variant && !e.has .variationPoint := by
    funext e
    simp [NodeFilter.labelled, NodeFilter.without, NodeFilter.accepts]
  have hrest :=
    yields_nodesMatching (g := g) ((NodeFilter.labelled .variant).without .variationPoint)
  rw [hvariants] at hrest
  refine (yields_nodesLabelled g .classType).bind
    ((yields_nodesLabelled g .variationPoint).bind (hrest.bind ?_))
  rw [List.length_map, List.length_map]
  exact Yields.pure _ _

/-- The metrics that are added up over all classes. -/
def Statistics.summed : List Property :=
  [.methodPoints, .constructorPoints, .methodVariants, .constructorVariants, .publicMethods,
    .allMethods, .publicConstructors, .compositions]

/-- Every metric that is added up counts edges of its node. A metric that is not set counts none. -/
def Graph.Counted (g : Graph) : Prop := ∀ p ∈ Statistics.summed, ∀ n, g.CountsEdges p n

/-- Where no metric is set, each counts no edges. -/
theorem Graph.Undetected.counted {g : Graph} (hg : g.Undetected) : g.Counted := by
  intro p _ n
  rw [CountsEdges, Entity.count, Entity.int?, (hg n).property?]
  exact ⟨Int.le_refl 0, Int.natCast_nonneg _⟩

/-- No sum that the rule for overloads or the statistics take of the numbers in a graph needs more
than 64 bits. Where one does, it wraps around, and a program that checks its sums would stop. -/
structure Graph.SumsFit (g : Graph) : Prop where
  overloads : ∀ n methods constructors, (g.entity n).int? .methodVariants = some methods →
    (g.entity n).int? .constructorVariants = some constructors → AddsUp methods [constructors]
  totals : ∀ p ∈ Statistics.summed,
    AddsUp 0 (((g.idsWhere (·.has .classType)).map g.nodeAt).filterMap (·.int? p))
  methodLevelPoints : AddsUp g.statistics.methodsPoints [g.statistics.constructorsPoints]
  points : AddsUp g.statistics.classLevelPoints [g.statistics.methodLevelPoints]
  methodLevelVariants : AddsUp g.statistics.methodsVariants [g.statistics.constructorsVariants]
  variants : AddsUp g.statistics.classLevelVariants [g.statistics.methodLevelVariants]

/-- The summary of a graph. -/
def Graph.summary (g : Graph) : GraphSummary where
  nodes := g.size
  relationships := g.edges.toList.length
  inheritance := g.edgeCount Relation.inheritance.contains
  compositions := g.edgeCount (· == .composing)

namespace Graph

theorem relationships_summary (g : Graph) : g.summary.relationships = g.edges.toList.length := rfl

theorem inheritance_summary (g : Graph) :
    g.summary.inheritance = g.edgeCount Relation.inheritance.contains := rfl

theorem compositions_summary (g : Graph) :
    g.summary.compositions = g.edgeCount (· == .composing) := rfl

theorem compositionClasses_statistics (g : Graph) : g.statistics.compositionClasses =
    Statistics.total ((g.idsWhere (·.has .classType)).map g.nodeAt) .compositions := rfl

end Graph

namespace Analysis

variable {g : Graph}

/-- A sweep whose handlers build. -/
theorem yields_sweep {σ : Type} {s : Sweep (StateT σ Session)} (h : s.Building) (start : σ)
    (units : List SourceUnit) (hg : g.Closed) :
    ∃ report g', Yields (sweep s start units) g report g' ∧ g.Grown g' := by
  obtain ⟨report, counts, g', hyields, hgrown, -⟩ := h.builds_run units start g hg
  exact ⟨(report, counts), g', hyields, hgrown⟩

/-- The graph after both detections. -/
noncomputable def detected (thresholds : HotspotThresholds) (g : Graph) : Graph :=
  Rule.applyAll (Hotspot.rules thresholds) (Rule.applyAll Variation.rules g)

/-- What an analysis answers and leaves, given what its sweeps answer and leave. -/
theorem yields_run_counted (thresholds : HotspotThresholds) {units : List SourceUnit}
    {g₁ g₂ g₃ g₄ g₅ : Graph} {second : Sweep.Report} {links : Sweep.SupertypeCounts}
    (h₁ : ∃ r, Yields (sweep Sweep.declarations {} units) g r g₁)
    (h₂ : Yields (sweep Sweep.supertypes {} units) g₁ (second, links) g₂)
    (h₃ : ∃ r, Yields (sweep Sweep.roles {} units) g₂ r g₃)
    (h₄ : ∃ r, Yields (sweep Sweep.factories {} units) g₃ r g₄)
    (h₅ : ∃ r, Yields (sweep Sweep.compositions {} units) g₄ r g₅) (hg₅ : g₅.Closed) :
    ∃ passes, Yields (run thresholds units) g
      { passes
        inheritanceLinks := links.links
        correctedLinks := links.corrected
        statistics := (detected thresholds g₅).statistics
        graph := (detected thresholds g₅).summary } (detected thresholds g₅) := by
  obtain ⟨⟨_, _⟩, h₁⟩ := h₁
  obtain ⟨⟨_, _⟩, h₃⟩ := h₃
  obtain ⟨⟨_, _⟩, h₄⟩ := h₄
  obtain ⟨⟨_, _⟩, h₅⟩ := h₅
  have hpoints := Variation.applies_detect hg₅
  have hhotspots := Hotspot.applies_detect thresholds (Rule.closed_applyAll hg₅ Variation.rules)
  have hcollect := Statistics.yields_collect (detected thresholds g₅)
  exact ⟨_, h₁.bind (h₂.bind (h₃.bind (h₄.bind (h₅.bind (hpoints.bind
    (hhotspots.bind (hcollect.bind (yields_summary.bind (Yields.pure _ _)))))))))⟩

/-- What an analysis leaves, given what its sweeps leave. -/
theorem yields_run_of_sweeps (thresholds : HotspotThresholds) {units : List SourceUnit}
    {g₁ g₂ g₃ g₄ g₅ : Graph} (h₁ : ∃ r, Yields (sweep Sweep.declarations {} units) g r g₁)
    (h₂ : ∃ r, Yields (sweep Sweep.supertypes {} units) g₁ r g₂)
    (h₃ : ∃ r, Yields (sweep Sweep.roles {} units) g₂ r g₃)
    (h₄ : ∃ r, Yields (sweep Sweep.factories {} units) g₃ r g₄)
    (h₅ : ∃ r, Yields (sweep Sweep.compositions {} units) g₄ r g₅) (hg₅ : g₅.Closed) :
    ∃ summary, Yields (run thresholds units) g summary (detected thresholds g₅) := by
  obtain ⟨⟨_, _⟩, h₂⟩ := h₂
  obtain ⟨_, hrun⟩ := yields_run_counted thresholds h₁ h₂ h₃ h₄ h₅ hg₅
  exact ⟨_, hrun⟩

/-- **An analysis succeeds**, for all thresholds and units and on every closed graph, and leaves
what the rules of detection make of a graph that has grown from the given one. -/
theorem yields_run_of_closed (thresholds : HotspotThresholds) (units : List SourceUnit)
    (hg : g.Closed) :
    ∃ summary h, g.Grown h ∧ Yields (run thresholds units) g summary (detected thresholds h) := by
  obtain ⟨r₁, g₁, h₁, grown₁⟩ := yields_sweep Sweep.building_declarations {} units hg
  obtain ⟨r₂, g₂, h₂, grown₂⟩ :=
    yields_sweep Sweep.building_supertypes {} units (grown₁.closed hg)
  have upto₂ := grown₁.trans grown₂
  obtain ⟨r₃, g₃, h₃, grown₃⟩ := yields_sweep Sweep.building_roles {} units (upto₂.closed hg)
  have upto₃ := upto₂.trans grown₃
  obtain ⟨r₄, g₄, h₄, grown₄⟩ := yields_sweep Sweep.building_factories {} units (upto₃.closed hg)
  have upto₄ := upto₃.trans grown₄
  obtain ⟨r₅, g₅, h₅, grown₅⟩ :=
    yields_sweep Sweep.building_compositions {} units (upto₄.closed hg)
  have upto₅ := upto₄.trans grown₅
  obtain ⟨summary, hrun⟩ := yields_run_of_sweeps thresholds ⟨r₁, h₁⟩ ⟨r₂, h₂⟩ ⟨r₃, h₃⟩ ⟨r₄, h₄⟩
    ⟨r₅, h₅⟩ (upto₅.closed hg)
  exact ⟨summary, g₅, upto₅, hrun⟩

/-- An analysis that starts on the empty graph. -/
theorem yields_run (thresholds : HotspotThresholds) (units : List SourceUnit) :
    ∃ summary g, Graph.empty.Grown g ∧
      Yields (run thresholds units) .empty summary (detected thresholds g) :=
  yields_run_of_closed thresholds units Graph.closed_empty

/-- Both detections change nothing that was given. -/
theorem agree_detected (thresholds : HotspotThresholds) (g : Graph) :
    g.Agree Trait.IsGiven (detected thresholds g) :=
  (Variation.agree_detected g).trans
    ((Hotspot.agree_detected thresholds _).mono Trait.isCold_of_isGiven)

/-- After both detections, variation points of either level are in scope, if there were none
before. -/
theorem inScope_detected (thresholds : HotspotThresholds) (hg : g.Undetected) (n : NodeId)
    (hn : ((detected thresholds g).entity n).has .outOfScope = true) :
    ((detected thresholds g).entity n).has .variationPoint = false ∧
      ((detected thresholds g).entity n).has .methodLevelPoint = false := by
  have H := Hotspot.agree_detected thresholds (Rule.applyAll Variation.rules g)
  rw [(agree_detected thresholds g).has (l := .outOfScope) rfl] at hn
  have hout : ∀ {k : Nat} {l : Label} {c : Entity → Bool},
      Variation.rules[k]? = some (.inScope l c) → l ∈ Variation.labels →
      ((Rule.applyAll Variation.rules g).entity n).has l = false := by
    intro k l c hk hl
    refine Bool.eq_false_iff.mpr fun hhas => ?_
    rw [Variation.inScope_of_has hk ((hg n).has l hl) hhas] at hn
    exact Bool.false_ne_true hn
  constructor
  · rw [detected, H.has (by decide)]
    exact hout (k := 5) rfl (by decide)
  · rw [detected, H.has (by decide)]
    exact hout (k := 6) rfl (by decide)

/-- **Every analysis leaves a well-formed graph**, for all thresholds and all source units, started
on the empty graph. -/
theorem run_wellFormed (thresholds : HotspotThresholds) (units : List SourceUnit) :
    ∃ summary g, Yields (run thresholds units) .empty summary g ∧ g.WellFormed := by
  obtain ⟨summary, g, hgrown, hyields⟩ := yields_run thresholds units
  have hsound : g.Sound := hgrown.sound Graph.sound_empty
  have hundetected : g.Undetected := hgrown.undetected Graph.undetected_empty
  refine ⟨summary, detected thresholds g, hyields, ?_⟩
  exact ((agree_detected thresholds g).sound hsound).wellFormed
    (inScope_detected thresholds hundetected)

end Analysis

end Variability
