import Variability.Variation.Metric

/-!
# Variation points and variants

A variation point is a type in scope at which a design offers alternatives: an interface, an
abstract class, a type in a design pattern, or a type with a direct subclass. The types one
inheritance step below a variation point are its variants. Classes with overloaded methods or
constructors are variation points on the level of methods.

Every step reads the graph that the steps before have left, and only adds labels or overwrites
properties.
-/

namespace Variability.Variation

/-- Whether an entity is a variation point, by its labels and its number of variants. -/
def isPoint (e : Entity) : Bool :=
  e.has .interfaceType || (e.has .classType && e.has .abstract) || e.hasPattern ||
    decide (0 < e.count .typeVariants)

/-- Whether an entity varies on the level of methods, by its metrics. -/
def isMethodLevelPoint (e : Entity) : Bool :=
  decide (0 < e.count .methodPoints) || decide (0 < e.count .constructorPoints)

/-- Labels the nodes in scope that meet a condition. -/
def labelInScope (label : Label) (p : Entity → Bool) : Session Unit := do
  (← Session.nodes).forM fun n =>
    if !n.isOutOfScope && p n.toEntity then Session.addLabel n.id label else pure ()

/-- Labels the variation points. -/
def labelPoints : Session Unit := labelInScope .variationPoint isPoint

/-- Labels the variation points on the level of methods. -/
def labelMethodLevelPoints : Session Unit := labelInScope .methodLevelPoint isMethodLevelPoint

/-- From a variation point to a type that inherits from it. -/
def variantPattern : HopPattern :=
  ⟨.labelled .variationPoint, Relation.inheritance, .types⟩

/-- Labels the variants. -/
def labelVariants : Session Unit := do
  (← Session.runQuery variantPattern).forM fun h => Session.addLabel h.target.id .variant

/-- From a type to a node that it is composed of. -/
def compositionPattern : HopPattern := ⟨.types, [.composing], .anyNode⟩

/-- Labels the types with more than one variant that other types are composed of. -/
def labelCompositionStrategies : Session Unit := do
  (← Session.runQuery compositionPattern).forM fun h =>
    if h.target.count .typeVariants > 1 then
      Session.addLabel h.target.id .compositionStrategy
    else pure ()

/-- From a variant to a variant that it is composed of. -/
def densePattern : HopPattern := ⟨.labelled .variant, [.composing], .labelled .variant⟩

/-- Labels both ends of a composition between two variants. -/
def labelDense : Session Unit := do
  (← Session.runQuery densePattern).forM fun h => do
    Session.addLabel h.source.id .dense
    Session.addLabel h.target.id .dense

/-- All metrics and labels of variation points and variants, each after those it reads. -/
def detect : Session Unit := do
  Metric.methodPoints
  Metric.methodVariants
  Metric.constructorPoints
  Metric.constructorVariants
  Metric.typeVariants
  labelPoints
  labelMethodLevelPoints
  labelVariants
  Metric.publicMethods
  Metric.publicConstructors
  Metric.compositions
  Metric.allMethods
  labelCompositionStrategies
  labelDense

end Variability.Variation
