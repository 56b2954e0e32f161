import Variability.Files.Basic
import Variability.Glob
import Variability.Text.Quoted

/-!
# Collecting source files

The Java files below a directory, sorted by their paths. Hidden directories and directories of tests
are not entered, and files that match one of the given patterns are left out; the patterns are for
paths relative to the directory.
-/

namespace Variability.Project

/-- Why files cannot be collected. -/
inductive CollectError where
  | badPattern (e : Glob.Error)
  | unreadable (path : String) (why : FileError)
  deriving DecidableEq, Repr, Inhabited

/-- The reason as it is shown. -/
def CollectError.message : CollectError → String
  | badPattern e => "invalid exclude glob " ++ Text.quoted e.text ++ ": " ++ e.message
  | unreadable path why =>
    "IO error for operation on " ++ path ++ ": " ++ why.message ++ ": " ++ why.message

/-- The names of directories that are not entered, besides hidden ones. -/
def testDirectories : List String := ["test", "tests"]

/-- Whether a directory is entered. -/
def entersDirectory (name : String) : Bool :=
  !Text.startsWith name "." && !testDirectories.contains name

/-- A path below a directory, given by the names on the way. -/
def pathBelow (root : String) (way : List String) : String := way.foldl Path.join root

/-- Whether a path is that of a Java file. -/
def isSource (path : String) : Bool := Path.extension? path == some "java"

/-- The patterns that texts stand for. -/
def readPatterns (patterns : List String) : Except CollectError (List Glob) :=
  patterns.mapM fun p => (Glob.read p).mapError .badPattern

/-- Whether a way is left out by one of the patterns. -/
def isExcluded (patterns : List Glob) (way : List String) : Bool :=
  patterns.any (·.isMatch (String.intercalate "/" way))

/-- The order of paths: name by name, by the characters of the names. -/
def wayLe : List String → List String → Bool
  | [], _ => true
  | _ :: _, [] => false
  | a :: as, b :: bs => if a == b then wayLe as bs else a < b

/-- The paths of the source files among files below a directory. -/
def select (root : String) (patterns : List Glob) (ways : List (List String)) : List String :=
  let chosen := ways.filter fun way => isSource (pathBelow root way) && !isExcluded patterns way
  (chosen.mergeSort wayLe).map (pathBelow root)

/-- The paths of the source files at and below a path. -/
def collect {m : Type → Type} [Monad m] [Files m] (root : String) (excluded : List String) :
    m (Except CollectError (List String)) := do
  match readPatterns excluded with
  | .error e => return .error e
  | .ok patterns =>
    match ← Files.filesBelow root entersDirectory with
    | .error e => return .error (.unreadable root e)
    | .ok ways => return .ok (select root patterns ways)

end Variability.Project
