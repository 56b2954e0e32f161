import Variability.Java.File
import Variability.Project.Collect
import Variability.Project.Flatten
import Variability.Text.Encoding

/-!
# Loading a project

The source files of a project, read, indexed and flattened into units. A file that cannot be read is
counted and left out.
-/

namespace Variability.Project

/-- A project that was loaded. -/
structure Loaded where
  units : List SourceUnit := []
  filesFound : Nat := 0
  filesFailed : Nat := 0
  typesIndexed : Nat := 0

/-- A source file that cannot be read, and why. -/
structure SourceError where
  path : String
  why : FileError
  deriving DecidableEq, Repr, Inhabited

/-- The error as it is shown. -/
def SourceError.message (e : SourceError) : String :=
  "failed to read " ++ e.path ++ ": " ++ e.why.message

variable {m : Type → Type} [Monad m] [Files m]

/-- The text of a source file. -/
def sourceText (path : String) : m (Except SourceError String) := do
  match ← Files.read path with
  | .ok bytes => return .ok (Text.decode bytes)
  | .error why => return .error ⟨path, why⟩

/-- Reads a source file, unless that fails. -/
def readSource? (path : String) : m (Option Java.FileSyntax) := do
  match ← sourceText path with
  | .ok text => return some (.read path text)
  | .error _ => return none

/-- Loads the project at a path. -/
def load (root : String) (excluded : List String) : m (Except CollectError Loaded) := do
  match ← collect root excluded with
  | .error e => return .error e
  | .ok paths =>
    let read ← paths.mapM readSource?
    let files := read.filterMap id
    return .ok {
      units := units files
      filesFound := paths.length
      filesFailed := paths.length - files.length
      typesIndexed := (Index.build files).size }

end Variability.Project
