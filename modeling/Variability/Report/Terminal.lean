import Variability.Report.Duration
import Variability.Report.Output
import Variability.Report.Percent
import Variability.Report.Style

/-!
# The report on the terminal

A summary of a run for people: what was read, what was found, and where the files of the report
are.
-/

namespace Variability.Terminal

/-- The version that is shown. -/
def version : String := "0.1.0"

/-- A text with blanks behind it, up to a width. -/
def padRight (width : Nat) (s : String) : String :=
  s ++ String.ofList (List.replicate (width - s.length) ' ')

/-- A line. -/
def line (s : String) : String := s ++ "\n"

/-- A line with a name and a value. -/
def entry (name value : String) : String := line ("    " ++ padRight 22 name ++ " " ++ value)

/-- How many files were read and how many were not. -/
def fileCounts (colours : Bool) (s : RunSummary) : String :=
  toString (s.filesFound - s.filesFailed) ++ " parsed" ++
    (if 0 < s.filesFailed then
      ", " ++ Style.yellow.paint colours (toString s.filesFailed ++ " failed")
    else "")

/-- The head of the report. -/
def header (colours : Bool) (source elapsed : String) (s : RunSummary) : String :=
  let label (text : String) := "  " ++ Style.dimmed.paint colours text
  line "" ++
  line ("  " ++ Style.boldCyan.paint colours "vpscan" ++ " v" ++ version) ++
  line "" ++
  line (label "Source:   " ++ source) ++
  line (label "Files:    " ++ fileCounts colours s) ++
  line (label "Elapsed:  " ++ elapsed) ++
  line ""

/-- A total with its two shares. -/
def levels (colours : Bool) (total types methods : Int64) : String :=
  Style.boldGreen.paint colours (toString total) ++ " (" ++ toString types ++ " class level, " ++
    toString methods ++ " method level)"

/-- The statistics. -/
def statistics (colours : Bool) (s : Statistics) : String :=
  line ("  " ++ Style.bold.paint colours "Variability:") ++
  entry "VPs" (levels colours s.points s.classLevelPoints s.methodLevelPoints) ++
  entry "Variants" (levels colours s.variants s.classLevelVariants s.methodLevelVariants) ++
  entry "Methods" (toString s.publicMethods ++ " public of " ++ toString s.allMethods) ++
  entry "Public constructors" (toString s.publicConstructors) ++
  entry "Compositions" (toString s.compositionClasses)

/-- The size of the graph. -/
def graph (colours : Bool) (s : RunSummary) : String :=
  let g := s.graph
  line ("  " ++ Style.bold.paint colours "Graph:") ++
  line ("    " ++ toString g.nodes ++ " nodes, " ++ toString g.relationships ++ " relationships (" ++
    toString g.inheritance ++ " inheritance, " ++ toString g.compositions ++ " composition)") ++
  line ("    " ++ Style.dimmed.paint colours
    (toString s.correctedLinks ++ " of " ++ toString s.inheritanceLinks ++
      " inheritance links corrected (" ++ s.correctedShareText ++ "%)"))

/-- Where a file of the report is, or why it is not there. -/
def output (colours : Bool) (path : String) : Option String → String
  | none => line ("  " ++ Style.green.paint colours "✓" ++ " " ++ path)
  | some why =>
    line ("  " ++ Style.red.paint colours "✗" ++ " " ++ path ++ " " ++
      Style.dimmed.paint colours why)

/-- The report on a run. -/
def report (colours : Bool) (source elapsed : String) (s : RunSummary) (o : OutputReport) : String :=
  header colours source elapsed s ++
  statistics colours s.statistics ++ line "" ++
  graph colours s ++ line "" ++
  output colours o.graphPath o.graphError ++
  output colours o.statsPath o.statsError ++
  line ""

end Variability.Terminal
