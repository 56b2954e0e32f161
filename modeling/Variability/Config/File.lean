import Variability.Config.Basic
import Variability.Files.Basic

/-!
# Configuration files

Where a configuration comes from: a file that is named, else the first file with one of the usual
names in a directory, else the defaults.
-/

namespace Variability.Config

/-- Why a configuration file cannot be used. -/
inductive FileProblem where
  | unreadable (path : String) (why : FileError)
  | invalid (path : String) (why : Problem)
  deriving DecidableEq, Repr, Inhabited

namespace FileProblem

/-- What went wrong with which file. -/
def context : FileProblem → String
  | unreadable path _ => "failed to read config " ++ path
  | invalid path _ => "invalid config " ++ path

/-- What went wrong with which file, and why. -/
def message (p : FileProblem) : String :=
  p.context ++ ": " ++ match p with
    | unreadable _ why => why.message
    | invalid _ why => why.message

end FileProblem

/-- The usual names of configuration files, in the order in which they are looked for. -/
def usualNames : List String := ["vpscan.yaml", ".vpscan.yaml"]

variable {m : Type → Type} [Monad m] [Files m]

/-- Reads a configuration file. -/
def readFile (path : String) : m (Except FileProblem Config) := do
  match ← Files.readText path with
  | .error e => return .error (.unreadable path e)
  | .ok text =>
    match read text with
    | .ok config => return .ok config
    | .error p => return .error (.invalid path p)

/-- The first of several paths at which there is a file. -/
def firstFile? : List String → m (Option String)
  | [] => return none
  | path :: paths => do if ← Files.isFile path then return some path else firstFile? paths

/-- The configuration file that is named, or else one with a usual name in a directory. -/
def find? (named : Option String) (dir : String) : m (Option String) :=
  match named with
  | some path => return some path
  | none => firstFile? (usualNames.map (Path.join dir))

/-- The configuration, and the path of the file it was read from. -/
def load (named : Option String) (dir : String) :
    m (Except FileProblem (Config × Option String)) := do
  match ← find? named dir with
  | none => return .ok ({}, none)
  | some path =>
    match ← readFile path with
    | .ok config => return .ok (config, some path)
    | .error p => return .error p

end Variability.Config
