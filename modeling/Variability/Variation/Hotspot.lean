import Variability.Store.Session

/-!
# Hotspots

A hotspot is a place where much variability comes together: a variation point with many variants,
a class with many overloads, or a large group of types composed of each other below a variation
point. The rules set flags as properties; the last step turns the flags into a label.
-/

namespace Variability

/-- The sizes from which on something is a hotspot. -/
structure HotspotThresholds where
  /-- Variants of a variation point, or overloads of a class. -/
  variants : UInt64 := 20
  /-- Types in the composition group below a variation point. -/
  aggregations : UInt64 := 5
  deriving DecidableEq, Repr, Inhabited

namespace Hotspot

/-- Inserts a number into a list of numbers kept in strictly increasing order. -/
def insertId (id : NodeId) : List NodeId → List NodeId
  | [] => [id]
  | x :: xs => if id < x then id :: x :: xs else if id = x then x :: xs else x :: insertId id xs

/-- The numbers in a list, each once and in increasing order. -/
def distinctIds (ids : List NodeId) : List NodeId :=
  ids.foldl (fun acc id => insertId id acc) []

/-- Sets a flag on a node. -/
def raise (p : Property) (id : NodeId) : Session Unit :=
  Session.setProperty id p (.bool true)

/-- From a variation point to a variant, along any relation. -/
def subtypingPattern : HopPattern := ⟨.labelled .variationPoint, [], .labelled .variant⟩

/-- The distinct targets of the hops from one source. -/
def targetsFrom (hops : List Hop) (source : NodeId) : List NodeId :=
  distinctIds ((hops.filter (·.source.id == source)).map (·.target.id))

/-- Flags each variation point with enough distinct variants among its direct successors,
together with those variants. -/
def flagSubtyping (threshold : UInt64) : Session Unit := do
  let hops ← Session.runQuery subtypingPattern
  (distinctIds (hops.map (·.source.id))).forM fun point =>
    let variants := targetsFrom hops point
    if variants.length < threshold.toNat then pure ()
    else do
      raise .hotspot point
      variants.forM (raise .hotspot)

/-- Whether the overloads of an entity reach a threshold. Both counts must be there. They are added
as numbers of 64 bits, where the sum wraps around, and the threshold is read as a signed number. -/
def hasManyOverloads (threshold : UInt64) (e : Entity) : Bool :=
  match e.int? .methodVariants, e.int? .constructorVariants with
  | some methods, some constructors => decide (threshold.toInt64 ≤ methods + constructors)
  | _, _ => false

/-- Flags each node with enough overloaded methods and constructors. -/
def flagOverloading (threshold : UInt64) : Session Unit := do
  (← Session.nodes).forM fun n =>
    if hasManyOverloads threshold n.toEntity then raise .hotspot n.id else pure ()

/-- Flags the composition group below each variation point whose group is large enough. -/
def flagGroups (threshold : UInt64) : Session Unit := do
  (← Session.nodesMatching (.labelled .variationPoint)).forM fun n => do
    let group ← Session.reachable n.id .composing
    if group.length < threshold.toNat then pure ()
    else group.forM (raise .aggregation)

/-- From any node to a variant that inherits from it. -/
def inheritancePattern : HopPattern :=
  ⟨.anyNode, Relation.inheritance, .labelled .variant⟩

/-- Whether a hop leads from a flagged node to one that is not flagged. -/
def isDue (h : Hop) : Bool := h.source.flag .aggregation && !h.target.flag .aggregation

/-- Flags the variants below flagged nodes, round after round, until a round finds none. Each
round flags the target of at least one hop more, so there are no more rounds than hops. -/
def spread : Nat → List Hop → Session Unit
  | rounds, hops =>
    let due := hops.filter isDue
    if due.isEmpty then pure ()
    else do
      due.forM fun h => raise .aggregation h.target.id
      match rounds with
      | 0 => pure ()
      | rounds + 1 => spread rounds (← Session.runQuery inheritancePattern)

/-- Flags the large composition groups, and then every variant below a flagged node. -/
def flagAggregations (threshold : UInt64) : Session Unit := do
  flagGroups threshold
  let hops ← Session.runQuery inheritancePattern
  spread hops.length hops

/-- Labels the flagged nodes. -/
def label : Session Unit := do
  (← Session.nodes).forM fun n =>
    if n.flag .hotspot || n.flag .aggregation then Session.addLabel n.id .hotspot else pure ()

/-- All hotspot rules. -/
def detect (t : HotspotThresholds) : Session Unit := do
  flagSubtyping t.variants
  flagOverloading t.variants
  flagAggregations t.aggregations
  label

end Hotspot

end Variability
