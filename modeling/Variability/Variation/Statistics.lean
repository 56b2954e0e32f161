import Variability.Store.Session

/-!
# Statistics

Totals over the whole graph: how many variation points and variants there are on the level of
types and of methods, and the sums of the class metrics. All of them are numbers of 64 bits, and a
sum that needs more wraps around.
-/

namespace Variability

/-- The totals of a graph. -/
structure Statistics where
  points : Int64 := 0
  methodsPoints : Int64 := 0
  constructorsPoints : Int64 := 0
  methodLevelPoints : Int64 := 0
  classLevelPoints : Int64 := 0
  variants : Int64 := 0
  methodsVariants : Int64 := 0
  constructorsVariants : Int64 := 0
  methodLevelVariants : Int64 := 0
  classLevelVariants : Int64 := 0
  publicMethods : Int64 := 0
  allMethods : Int64 := 0
  publicConstructors : Int64 := 0
  compositionClasses : Int64 := 0
  deriving DecidableEq, Repr, Inhabited

namespace Statistics

/-- The sum of a metric over some nodes, in 64 bits, where it wraps around; a node without the
metric adds nothing. -/
def total (nodes : List Node) (p : Property) : Int64 :=
  (nodes.filterMap (·.int? p)).foldl (· + ·) 0

/-- The totals, from the classes, the number of variation points and the number of variants that
are no variation points. -/
def ofNodes (classes : List Node) (points variants : Nat) : Statistics :=
  let methodLevelPoints := total classes .methodPoints + total classes .constructorPoints
  let methodLevelVariants := total classes .methodVariants + total classes .constructorVariants
  { points := .ofNat points + methodLevelPoints
    methodsPoints := total classes .methodPoints
    constructorsPoints := total classes .constructorPoints
    methodLevelPoints
    classLevelPoints := .ofNat points
    variants := .ofNat variants + methodLevelVariants
    methodsVariants := total classes .methodVariants
    constructorsVariants := total classes .constructorVariants
    methodLevelVariants
    classLevelVariants := .ofNat variants
    publicMethods := total classes .publicMethods
    allMethods := total classes .allMethods
    publicConstructors := total classes .publicConstructors
    compositionClasses := total classes .compositions }

/-- The totals of the graph as it is. -/
def collect : Session Statistics := do
  let classes ← Session.nodesMatching (.labelled .classType)
  let points ← Session.nodesMatching (.labelled .variationPoint)
  let variants ← Session.nodesMatching ((NodeFilter.labelled .variant).without .variationPoint)
  return ofNodes classes points.length variants.length

end Statistics

end Variability
