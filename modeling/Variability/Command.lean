import Variability.Analysis
import Variability.CommandLine
import Variability.Config.File
import Variability.Config.Template
import Variability.Project.Load
import Variability.Report.Terminal

/-!
# Commands

What the program does for each command. A command works on files through `Files`, takes the time by a
clock, and answers what is to be printed and the exit code: 0 for success, 1 when a file of the report
could not be written, 2 when nothing could be done.
-/

namespace Variability

/-- A clock that counts milliseconds. -/
class Clock (m : Type → Type) where
  now : m Nat

/-- What a command printed, and its exit code. -/
structure Outcome where
  exitCode : UInt32 := 0
  stdout : String := ""
  stderr : String := ""
  deriving DecidableEq, Repr, Inhabited

namespace Outcome

/-- Nothing could be done. -/
def error (why : String) : Outcome := { exitCode := 2, stderr := "Error: " ++ why ++ "\n" }

end Outcome

/-- Why the sources below a directory cannot be analysed. -/
inductive RunError where
  | files (e : Project.CollectError)
  | graph (e : GraphError)

/-- The reason as it is shown. -/
def RunError.message : RunError → String
  | files e => e.message
  | graph e => e.message

/-- What a run leaves: its summary, the document for the visualization, and the graph. -/
structure RunResult where
  summary : RunSummary
  document : Document
  store : Store

/-- Analyses units on an empty store, and builds the document. -/
def analyzeUnits (config : Config) (units : List SourceUnit) : Except GraphError RunResult :=
  let session : Session (RunSummary × Document) := do
    let summary ← Analysis.run config.hotspots units
    return (summary, ← Document.build)
  match session config.retry.policy {} with
  | (.ok (summary, document), store) => .ok { summary, document, store }
  | (.error e, _) => .error e

variable {m : Type → Type} [Monad m] [Files m] [Clock m]

/-- Loads and analyses the sources below a directory. -/
def runProject (config : Config) (root : String) : m (Except RunError RunResult) := do
  match ← Project.load root config.excludedPaths with
  | .error e => return .error (.files e)
  | .ok project =>
    match analyzeUnits config project.units with
    | .error e => return .error (.graph e)
    | .ok r =>
      let summary := { r.summary with
        filesFound := project.filesFound
        filesFailed := project.filesFailed
        typesIndexed := project.typesIndexed }
      return .ok { r with summary }

namespace Command

open CommandLine

/-- A configuration with the sizes that the arguments give. -/
def override (args : AnalyzeArgs) (config : Config) : Config :=
  { config with
    hotspots := {
      variants := args.singularityThreshold.getD config.hotspots.variants
      aggregations := args.aggregationThreshold.getD config.hotspots.aggregations } }

/-- The configuration for an analysis, or the message why there is none. -/
def loadConfig (args : AnalyzeArgs) : m (Except String Config) := do
  match ← Config.load args.config (← Files.workingDirectory) with
  | .error p => return .error p.message
  | .ok (config, _) =>
    let config := override args config
    match config.validate with
    | .error e => return .error e.message
    | .ok _ => return .ok config

/-- What an analysis prints. -/
def results (colours : Bool) (args : AnalyzeArgs) (millis : Nat) (summary : RunSummary)
    (o : OutputReport) : String :=
  match args.format with
  | .json => (summary.statistics.toJson.pretty 0) ++ "\n"
  | .pretty => Terminal.report colours args.source (Duration.text millis) summary o

/-- Analyses sources and writes the report. -/
def analyze (colours : Bool) (args : AnalyzeArgs) : m Outcome := do
  match ← loadConfig args with
  | .error why => return .error why
  | .ok config =>
    if !(← Files.isDirectory args.source) then
      return .error ("not a directory: " ++ args.source)
    let start ← Clock.now
    match ← runProject config args.source with
    | .error e => return .error e.message
    | .ok r =>
      let stop ← Clock.now
      let o ← Output.write r.document r.summary.statistics args.output
      return {
        exitCode := if o.isOk then 0 else 1
        stdout := results colours args (stop - start) r.summary o }

/-- What is printed after a configuration file has been written. -/
def nextSteps (path : String) : String :=
  "Created " ++ path ++ "\n\nNext steps:\n" ++
  "  1. Edit " ++ path ++ " to adjust the hotspot thresholds\n" ++
  "  2. Run: vpscan analyze <SOURCE_DIR> <OUTPUT_JSON> --config " ++ path ++ "\n"

/-- Writes a configuration file. -/
def init (args : InitArgs) : m Outcome := do
  if (← Files.isThere args.output) && !args.force then
    return {
      exitCode := 2
      stderr := "Error: file already exists: " ++ args.output ++ "\n" ++
        "Use --force to overwrite it or --output to pick another path\n" }
  match ← Files.makeDirectories ((Path.parent? args.output).getD "") with
  | .error e => return .error ("failed to create directory: " ++ e.message)
  | .ok _ =>
    match ← Files.write args.output Config.template with
    | .error e => return .error ("failed to write config: " ++ e.message)
    | .ok _ => return { stdout := nextSteps args.output }

/-- Carries out a command. -/
def run (colours : Bool) : Command → m Outcome
  | .analyze args => analyze colours args
  | .init args => init args

end Command

end Variability
