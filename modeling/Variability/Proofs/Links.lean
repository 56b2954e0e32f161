import Mathlib.Data.List.Perm.Subperm
import Variability.Proofs.Entries

/-!
# Links and lists of a document

A document asks the graph five questions, each with a condition of its own: two of them list nodes
and three list edges. The answers have to fit each other. A viewer finds the ends of a link in the
list of all types, and the links of variation points and of compositions among all links. This
module says what each question selects, by labels and relations alone, and derives how the answers
fit.

Edges may be repeated, and different edges may show as the same link where nodes share a name. So
the statements are about the edges behind the links, and about lists, not sets.

## Main results

* `Graph.edgesOf_allPattern`, `Graph.edgesOf_linkPattern`, `Graph.edgesOf_compositionPattern`: which
  edges the three patterns select. The last two select among the edges of the first.
* `Graph.enumerates_idsWhere`: nodes that are selected are listed once and in creation order.
* `Graph.lists_document`: how the lists of the document of a graph fit each other.
* `Document.build_lists`: every document that is built has such lists.
-/

namespace Variability

/-- A filter with one more excluded label. -/
@[simp] theorem NodeFilter.accepts_without (f : NodeFilter) (l : Label) (e : Entity) :
    (f.without l).accepts e = (f.accepts e && !e.has l) := by
  simp [without, accepts, Bool.and_assoc]

namespace Graph

variable (g : Graph)

/-! ### Edges behind links -/

/-- An inheritance or a composition between two nodes in scope. -/
def IsLink (e : Edge) : Prop :=
  (e.relation = .extending ∨ e.relation = .implementing ∨ e.relation = .composing) ∧
    (g.entity e.source).has .outOfScope = false ∧ (g.entity e.target).has .outOfScope = false

/-- An inheritance from a variation point. -/
def IsVariation (e : Edge) : Prop :=
  (e.relation = .extending ∨ e.relation = .implementing) ∧
    (g.entity e.source).has .variationPoint = true

/-- A composition of a class. -/
def IsClassComposition (e : Edge) : Prop :=
  e.relation = .composing ∧ (g.entity e.source).has .classType = true

instance (e : Edge) : Decidable (g.IsLink e) := inferInstanceAs (Decidable (_ ∧ _))

instance (e : Edge) : Decidable (g.IsVariation e) := inferInstanceAs (Decidable (_ ∧ _))

instance (e : Edge) : Decidable (g.IsClassComposition e) := inferInstanceAs (Decidable (_ ∧ _))

/-- No edge is an inheritance and a composition. -/
theorem not_isVariation_and_isClassComposition (e : Edge) :
    ¬ (g.IsVariation e ∧ g.IsClassComposition e) := by
  rintro ⟨⟨h | h, -⟩, hcomposing, -⟩
  · exact absurd (h.symm.trans hcomposing) (by decide)
  · exact absurd (h.symm.trans hcomposing) (by decide)

/-- The edges behind all links, in creation order. -/
def linkEdges : List Edge := g.edges.toList.filter (g.IsLink ·)

/-- **All links** are the inheritances and compositions in scope. -/
theorem edgesOf_allPattern : g.edgesOf Document.allPattern = g.linkEdges := by
  refine List.filter_congr fun e _ => ?_
  rw [Bool.eq_iff_iff, decide_eq_true_iff]
  simp [fits, Document.allPattern, Document.inScope, Relation.isAmong, IsLink, and_assoc]

/-- The links of variation points are selected among all links. -/
theorem edgesOf_linkPattern :
    g.edgesOf Document.linkPattern = g.linkEdges.filter (g.IsVariation ·) := by
  rw [linkEdges, List.filter_filter]
  refine List.filter_congr fun ⟨source, relation, target⟩ _ => ?_
  cases relation <;>
    simp [fits, Document.linkPattern, Document.inScope, Relation.isAmong, Relation.inheritance,
      IsLink, IsVariation, Bool.and_assoc]

/-- The links of compositions are selected among all links. -/
theorem edgesOf_compositionPattern :
    g.edgesOf Document.compositionPattern = g.linkEdges.filter (g.IsClassComposition ·) := by
  rw [linkEdges, List.filter_filter]
  refine List.filter_congr fun ⟨source, relation, target⟩ _ => ?_
  cases relation <;>
    simp [fits, Document.compositionPattern, Document.inScope, Relation.isAmong, IsLink,
      IsClassComposition, Bool.and_assoc]

/-- What selections that exclude each other show is part of what the whole list shows, for both at
once. -/
theorem map_filter_append_subperm {α : Type} (f : Edge → α) {p q : Edge → Bool}
    (h : ∀ e, ¬ (p e = true ∧ q e = true)) (es : List Edge) :
    ((es.filter p).map f ++ (es.filter q).map f).Subperm (es.map f) := by
  have hrest : (es.filter q).Sublist (es.filter fun e => !p e) := by
    refine List.monotone_filter_right es fun e hq => ?_
    simpa [hq] using h e
  rw [← List.map_append]
  exact ((hrest.append_left _).map f).subperm.trans ((List.filter_append_perm p es).map f).subperm

/-! ### Listed nodes -/

/-- The list `ids` has the nodes that meet a condition, each once and in creation order. -/
structure Enumerates (p : Entity → Prop) (ids : List NodeId) : Prop where
  increasing : ids.Pairwise (· < ·)
  mem_iff : ∀ n, n ∈ ids ↔ n < g.size ∧ p (g.entity n)

/-- **Nodes that are selected are listed once and in creation order.** -/
theorem enumerates_idsWhere {p : Entity → Prop} {c : Entity → Bool} (h : ∀ e, c e = true ↔ p e) :
    g.Enumerates p (g.idsWhere c) where
  increasing := List.pairwise_lt_range.filter _
  mem_iff n := by rw [mem_idsWhere, h]

end Graph

namespace Entity

/-- A class or interface in scope. -/
def IsListedType (e : Entity) : Prop :=
  e.has .outOfScope = false ∧ (e.has .classType = true ∨ e.has .interfaceType = true)

/-- A variation point, variant or method-level variation point in scope. -/
def IsListedVarying (e : Entity) : Prop :=
  e.has .outOfScope = false ∧
    (e.has .variationPoint = true ∨ e.has .variant = true ∨ e.has .methodLevelPoint = true)

theorem isListedType_iff {e : Entity} : (!e.isOutOfScope && e.isType) = true ↔ e.IsListedType := by
  simp [isOutOfScope, isType, IsListedType]

theorem isListedVarying_iff {e : Entity} :
    (!e.isOutOfScope && Document.varies e) = true ↔ e.IsListedVarying := by
  simp [isOutOfScope, Document.varies, IsListedVarying, or_assoc]

end Entity

/-- The lists of a document are those of a graph and fit each other. Behind the entries stand the
nodes `varying` and `types`. -/
structure Document.Lists (doc : Document) (g : Graph) (varying types : List NodeId) : Prop where
  allLinks : doc.allLinks = g.linkEdges.map g.documentLink
  links : doc.links = (g.linkEdges.filter (g.IsVariation ·)).map g.documentLink
  compositionLinks :
    doc.compositionLinks = (g.linkEdges.filter (g.IsClassComposition ·)).map g.documentLink
  links_sublist : doc.links.Sublist doc.allLinks
  compositionLinks_sublist : doc.compositionLinks.Sublist doc.allLinks
  /-- No edge is behind links of both lists, so even together they are part of all links. -/
  apart : ∀ e, ¬ (g.IsVariation e ∧ g.IsClassComposition e)
  together : (doc.links ++ doc.compositionLinks).Subperm doc.allLinks
  enumerates_varying : g.Enumerates Entity.IsListedVarying varying
  nodes : doc.nodes = varying.map (g.entry false)
  enumerates_types : g.Enumerates Entity.IsListedType types
  allNodes : doc.allNodes = types.map (g.entry true)
  /-- A link is that of an edge, and the ends of the edge are listed where they are types. -/
  ends : ∀ l ∈ doc.links ++ doc.compositionLinks ++ doc.allLinks,
    ∃ e ∈ g.edges, l = g.documentLink e ∧
      ((g.entity e.source).isType = true → e.source ∈ types) ∧
      ((g.entity e.target).isType = true → e.target ∈ types)

namespace Graph

variable {g : Graph}

/-- The ends of a link are listed where they are types. -/
theorem Enumerates.ends {types : List NodeId} (h : g.Enumerates Entity.IsListedType types)
    {e : Edge} (he : g.IsLink e) :
    ((g.entity e.source).isType = true → e.source ∈ types) ∧
      ((g.entity e.target).isType = true → e.target ∈ types) := by
  have hlisted : ∀ n, (g.entity n).has .outOfScope = false → (g.entity n).isType = true →
      n ∈ types := fun n hscope htype =>
    (h.mem_iff n).mpr ⟨lt_size_of_isType htype, hscope, by simpa [Entity.isType] using htype⟩
  exact ⟨hlisted _ he.2.1, hlisted _ he.2.2⟩

/-- **The lists of the document of a graph** fit each other. -/
theorem lists_document (g : Graph) :
    g.document.Lists g (g.idsWhere fun e => !e.isOutOfScope && Document.varies e)
      (g.idsWhere fun e => !e.isOutOfScope && e.isType) := by
  have htypes := g.enumerates_idsWhere (c := fun e => !e.isOutOfScope && e.isType)
    fun _ => Entity.isListedType_iff
  have hall : g.document.allLinks = g.linkEdges.map g.documentLink :=
    congrArg (List.map _) g.edgesOf_allPattern
  have hlinks : g.document.links = (g.linkEdges.filter (g.IsVariation ·)).map g.documentLink :=
    congrArg (List.map _) g.edgesOf_linkPattern
  have hcompositions : g.document.compositionLinks =
      (g.linkEdges.filter (g.IsClassComposition ·)).map g.documentLink :=
    congrArg (List.map _) g.edgesOf_compositionPattern
  have hsublist : g.document.links.Sublist g.document.allLinks := by
    rw [hlinks, hall]
    exact List.filter_sublist.map _
  have hsublist' : g.document.compositionLinks.Sublist g.document.allLinks := by
    rw [hcompositions, hall]
    exact List.filter_sublist.map _
  refine ⟨hall, hlinks, hcompositions, hsublist, hsublist',
    g.not_isVariation_and_isClassComposition, ?together,
    g.enumerates_idsWhere fun _ => Entity.isListedVarying_iff, g.nodes_document, htypes,
    g.allNodes_document, ?ends⟩
  case together =>
    rw [hlinks, hcompositions, hall]
    refine map_filter_append_subperm _ (fun e => ?_) _
    simpa using g.not_isVariation_and_isClassComposition e
  case ends =>
    intro l hl
    have hmem : l ∈ g.document.allLinks := by
      rcases List.mem_append.mp hl with hl | hl
      · exact (List.mem_append.mp hl).elim (hsublist.subset ·) (hsublist'.subset ·)
      · exact hl
    rw [hall] at hmem
    obtain ⟨e, he, rfl⟩ := List.mem_map.mp hmem
    obtain ⟨hedge, hlink⟩ := List.mem_filter.mp he
    exact ⟨e, Array.mem_toList_iff.mp hedge, rfl, htypes.ends (of_decide_eq_true hlink)⟩

end Graph

/-- **The lists of a document fit each other.** On every store, whatever has been called on it, the
document can be built. All links are the inheritances and compositions in scope. The links of
variation points and those of compositions are made by different edges, and each list is all links
with some left out. The nodes are listed once and in creation order, and a type at the end of a link
is listed. -/
theorem Document.build_lists (policy : RetryPolicy) (calls : List Store.Write) :
    ∃ doc varying types, build policy (.after calls) = (.ok doc, .after calls) ∧
      doc.Lists (Store.after calls).graph varying types := by
  have hbuild := yields_build (Store.closed_after calls) policy
  rw [← Store.after_eq] at hbuild
  exact ⟨_, _, _, hbuild, (Store.after calls).graph.lists_document⟩

end Variability
