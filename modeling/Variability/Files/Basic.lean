import Variability.Path

/-!
# Files

What the program asks of the place where files are kept. The operations are collected in a class, so
that the commands can be run on a real disk and on a tree of files in memory alike.
-/

namespace Variability

/-- Why an operation on files fails. -/
inductive FileError where
  | notFound
  | alreadyExists
  | notADirectory
  | isADirectory
  /-- A file that should be text is not valid UTF-8. -/
  | invalidText
  /-- Any other reason, in the words of the system. -/
  | other (why : String)
  deriving DecidableEq, Repr, Inhabited

namespace FileError

/-- The reason as it is shown. -/
def message : FileError → String
  | notFound => "No such file or directory (os error 2)"
  | alreadyExists => "File exists (os error 17)"
  | notADirectory => "Not a directory (os error 20)"
  | isADirectory => "Is a directory (os error 21)"
  | invalidText => "stream did not contain valid UTF-8"
  | other why => why

end FileError

/-- What can be found at a path. -/
inductive FileKind where
  | file
  | directory
  deriving DecidableEq, Repr, Inhabited

/-- A place where files are kept. Every operation names files by their paths, and a relative path is
taken from the working directory. -/
class Files (m : Type → Type) where
  /-- The path of the working directory. -/
  workingDirectory : m String
  /-- What is at a path, if anything is. -/
  kind? : String → m (Option FileKind)
  /-- The content of a file. -/
  read : String → m (Except FileError (List UInt8))
  /-- Gives a file a new content, and creates it if it is not there. -/
  write : String → String → m (Except FileError Unit)
  /-- Creates a directory in one that is there. -/
  makeDirectory : String → m (Except FileError Unit)
  /-- The files at and below a path, each with the names on the way to it. Directories below whose
  names fail the test are not entered. -/
  filesBelow : String → (String → Bool) → m (Except FileError (List (List String)))

namespace Files

variable {m : Type → Type} [Monad m] [Files m]

/-- Whether there is a file at a path. -/
def isFile (path : String) : m Bool := return (← kind? path) == some .file

/-- Whether there is a directory at a path. -/
def isDirectory (path : String) : m Bool := return (← kind? path) == some .directory

/-- Whether there is anything at a path. -/
def isThere (path : String) : m Bool := return (← kind? path).isSome

/-- The content of a text file. -/
def readText (path : String) : m (Except FileError String) := do
  match ← read path with
  | .error e => return .error e
  | .ok bytes =>
    match String.fromUTF8? ⟨bytes.toArray⟩ with
    | some text => return .ok text
    | none => return .error .invalidText

/-- Creates a directory, unless it is there. -/
def ensureDirectory (path : String) : m (Except FileError Unit) := do
  match ← makeDirectory path with
  | .ok _ => return .ok ()
  | .error e => return if ← isDirectory path then .ok () else .error e

/-- The paths of a directory and of those above it, from the inside out, at most `n` of them. -/
def ancestors : Nat → String → List String
  | 0, _ => []
  | n + 1, path =>
    if path == "" then [] else
      path :: (match Path.parent? path with
        | some dir => ancestors n dir
        | none => [])

/-- Creates the first directory that can be created, or finds one that is there, and then those before
it in the list. Paths are from the inside out; only the lack of a directory above makes the
search go on. -/
def makeChain : List String → m (Except FileError Unit)
  | [] => return .ok ()
  | path :: above => do
    match ← makeDirectory path with
    | .ok _ => return .ok ()
    | .error .notFound =>
      match ← makeChain above with
      | .ok _ => ensureDirectory path
      | .error e => return .error e
    | .error e => return if ← isDirectory path then .ok () else .error e

/-- Creates a directory and all those above it that are missing. -/
def makeDirectories (path : String) : m (Except FileError Unit) :=
  makeChain (ancestors (path.length + 1) path)

end Files

end Variability
