import Variability.Files.Basic
import Variability.Report.Document

/-!
# The files of a report

A report is written into two files: the document for the visualization, and the statistics beside it.
Directories are created as needed. One file is written whether or not the other could be.
-/

namespace Variability

/-- Why a file of a report could not be written. -/
inductive OutputError where
  | directory (path : String) (why : FileError)
  | file (path : String) (why : FileError)
  deriving DecidableEq, Repr, Inhabited

/-- The reason as it is shown. -/
def OutputError.message : OutputError → String
  | directory path why => "failed to create directory " ++ path ++ ": " ++ why.message
  | file path why => "failed to write " ++ path ++ ": " ++ why.message

/-- Where the files of a report went, and what went wrong. -/
structure OutputReport where
  graphPath : String := ""
  statsPath : String := ""
  graphError : Option String := none
  statsError : Option String := none
  deriving DecidableEq, Repr, Inhabited

/-- Whether both files were written. -/
def OutputReport.isOk (r : OutputReport) : Bool := r.graphError.isNone && r.statsError.isNone

namespace Output

/-- The name of the statistics file beside a file: `-stats.json` after its name, in place of `.json` if
the name ends so. -/
def statsName (name : String) : String :=
  let stem := if Text.endsWith name ".json" then name.toList.take (name.length - 5) else name.toList
  String.ofList stem ++ "-stats.json"

/-- The path of the statistics file beside a file. -/
def statsPath (path : String) : String :=
  Path.withFileName path (statsName ((Path.fileName? path).getD ""))

variable {m : Type → Type} [Monad m] [Files m]

/-- Writes a file, and creates the directory for it if that is missing. -/
def writeFile (path content : String) : m (Except OutputError Unit) := do
  let dir := (Path.parent? path).getD ""
  match ← (if dir == "" then pure (.ok ()) else Files.makeDirectories dir) with
  | .error e => return .error (.directory dir e)
  | .ok _ =>
    match ← Files.write path content with
    | .error e => return .error (.file path e)
    | .ok _ => return .ok ()

/-- Writes a file, and answers what went wrong. -/
def attempt (path : String) (j : Json) : m (Option String) := do
  match ← writeFile path j.render with
  | .ok _ => return none
  | .error e => return some e.message

/-- Writes a report: the document to the path, the statistics beside it. -/
def write (document : Document) (statistics : Statistics) (path : String) : m OutputReport := do
  let statsPath := statsPath path
  let graphError ← attempt path document.toJson
  let statsError ← attempt statsPath statistics.toJson
  return { graphPath := path, statsPath, graphError, statsError }

end Output

end Variability
