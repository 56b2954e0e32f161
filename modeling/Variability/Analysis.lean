import Variability.Sweep.Supertypes
import Variability.Sweep.Roles
import Variability.Sweep.Factories
import Variability.Sweep.Compositions
import Variability.Variation.Point
import Variability.Variation.Hotspot
import Variability.Variation.Statistics

/-!
# The analysis

Five sweeps over the source units build the graph; then the variation points, the variants and the
hotspots are detected on it. The order matters: each sweep reads what those before it have built.
-/

namespace Variability

/-- What an analysis did and found. -/
structure RunSummary where
  filesFound : Nat := 0
  filesFailed : Nat := 0
  typesIndexed : Nat := 0
  passes : List Sweep.Report := []
  inheritanceLinks : Nat := 0
  correctedLinks : Nat := 0
  statistics : Statistics := {}
  graph : GraphSummary := {}
  deriving DecidableEq, Repr, Inhabited

namespace Analysis

/-- Runs a sweep with counters that start at zero; answers its report and its counters. -/
def sweep {σ : Type} (s : Sweep (StateT σ Session)) (start : σ)
    (units : List SourceUnit) : Session (Sweep.Report × σ) :=
  (s.run units).run start

/-- Analyses source units into the graph of the session. -/
def run (thresholds : HotspotThresholds) (units : List SourceUnit) : Session RunSummary := do
  let (first, _) ← sweep Sweep.declarations {} units
  let (second, links) ← sweep Sweep.supertypes {} units
  let (third, _) ← sweep Sweep.roles {} units
  let (fourth, _) ← sweep Sweep.factories {} units
  let (fifth, _) ← sweep Sweep.compositions {} units
  Variation.detect
  Hotspot.detect thresholds
  let statistics ← Statistics.collect
  let graph ← Session.summary
  return {
    passes := [first, second, third, fourth, fifth]
    inheritanceLinks := links.links
    correctedLinks := links.corrected
    statistics
    graph }

end Analysis

end Variability
