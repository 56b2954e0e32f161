import Variability.Files.Basic

/-!
# A tree of files in memory

Files and directories listed with the names on the way to them from the working directory, which is
always there. Directories are listed too, each after the one that holds it.
-/

namespace Variability

/-- A file with its content, or a directory. -/
inductive FileEntry where
  | file (content : List UInt8)
  | directory
  deriving DecidableEq, Inhabited

namespace FileEntry

/-- What the entry is. -/
def kind : FileEntry → FileKind
  | file _ => .file
  | directory => .directory

end FileEntry

/-- A tree of files. -/
structure FileTree where
  /-- The path of the working directory. -/
  home : String := "."
  /-- What is below the working directory. -/
  entries : List (List String × FileEntry) := []
  deriving Inhabited

namespace FileTree

/-- What is at the end of a way, if anything is. -/
def get? (t : FileTree) (way : List String) : Option FileEntry :=
  if way.isEmpty then some .directory else (t.entries.find? (·.1 == way)).map (·.2)

/-- Puts an entry at the end of a way. -/
def put (t : FileTree) (way : List String) (e : FileEntry) : FileTree :=
  if (t.get? way).isSome then
    { t with entries := t.entries.map fun (w, old) => if w == way then (w, e) else (w, old) }
  else { t with entries := t.entries ++ [(way, e)] }

/-- The parts of a path taken from the working directory. A path outside of it is not found. -/
def relative (t : FileTree) (path : String) : Except FileError (List String) :=
  if path == "" then .error .notFound
  else if path == t.home then .ok []
  else if Text.startsWith path (t.home ++ "/") then
    .ok (Path.parts (String.ofList (path.toList.drop (t.home.length + 1))))
  else if Text.startsWith path "/" then .error .notFound
  else .ok (Path.parts path)

/-- A path without the slashes at its end. -/
def withoutSlashes (path : String) : List Char :=
  (path.toList.reverse.dropWhile (· == '/')).reverse

/-- Whether a path ends in a dot that stands for the directory before it. -/
def endsInDot (path : String) : Bool := Text.endsWith (String.ofList (withoutSlashes path)) "/."

/-- Whether a path can lead to a directory only, since nothing or a dot follows its last slash. -/
def wantsDirectory (path : String) : Bool := Text.endsWith path "/" || endsInDot path

/-- Follows parts from the way walked so far, given from its end. Only a directory can be walked
through, and only the last part need not be there. -/
def follow (t : FileTree) : List String → List String → Except FileError (List String)
  | walked, [] => .ok walked.reverse
  | walked, part :: rest =>
    match t.get? walked.reverse with
    | none => .error .notFound
    | some (.file _) => .error .notADirectory
    | some .directory =>
      if part == ".." then
        match walked with
        | [] => .error .notFound
        | _ :: above => follow t above rest
      else follow t (part :: walked) rest

/-- The way that a path describes; its end need not be there. -/
def locate (t : FileTree) (path : String) : Except FileError (List String) := do
  let way ← t.follow [] (← t.relative path)
  match t.get? way with
  | some (.file _) => if wantsDirectory path then .error .notADirectory else .ok way
  | _ => .ok way

/-- What is at a path. -/
def lookUp (t : FileTree) (path : String) : Except FileError FileEntry := do
  match t.get? (← t.locate path) with
  | some e => .ok e
  | none => .error .notFound

/-- The content of a file. -/
def read (t : FileTree) (path : String) : Except FileError (List UInt8) := do
  match ← t.lookUp path with
  | .file content => .ok content
  | .directory => .error .isADirectory

/-- The tree with a new content for a file. -/
def write (t : FileTree) (path content : String) : Except FileError FileTree := do
  let way ← t.locate path
  match t.get? way with
  | some .directory => .error .isADirectory
  | some (.file _) => .ok (t.put way (.file content.toUTF8.toList))
  | none =>
    if endsInDot path then .error .notFound
    else if wantsDirectory path then .error .isADirectory
    else .ok (t.put way (.file content.toUTF8.toList))

/-- The tree with a new directory. -/
def makeDirectory (t : FileTree) (path : String) : Except FileError FileTree := do
  let way ← t.locate path
  match t.get? way with
  | some _ => .error .alreadyExists
  | none => if endsInDot path then .error .notFound else .ok (t.put way .directory)

/-- The names on the way from a directory to a file below it, if the file is below it and all
directories between pass the test. -/
def wayBelow? (enter : String → Bool) (dir way : List String) : Option (List String) :=
  if dir.isPrefixOf way then
    let names := way.drop dir.length
    if names.dropLast.all enter then some names else none
  else none

/-- The files at and below a path. -/
def filesBelow (t : FileTree) (path : String) (enter : String → Bool) :
    Except FileError (List (List String)) := do
  let way ← t.locate path
  match t.get? way with
  | none => .error .notFound
  | some (.file _) => .ok [[]]
  | some .directory =>
    .ok (t.entries.filterMap fun
      | (w, .file _) => wayBelow? enter way w
      | (_, .directory) => none)

/-- An operation that changes the tree unless it fails. -/
def change (f : FileTree → Except FileError FileTree) : StateM FileTree (Except FileError Unit) := do
  match f (← get) with
  | .ok t => set t; return .ok ()
  | .error e => return .error e

instance : Files (StateM FileTree) where
  workingDirectory := return (← get).home
  kind? path := return ((← get).lookUp path).toOption.map FileEntry.kind
  read path := return (← get).read path
  write path content := change (·.write path content)
  makeDirectory path := change (·.makeDirectory path)
  filesBelow path enter := return (← get).filesBelow path enter

/-- A tree of the given files and directories, together with the directories that hold them. -/
def ofList (home : String) (files : List (String × FileEntry)) : FileTree :=
  files.foldl
    (fun t (path, e) =>
      let way := Path.parts path
      let above := (List.range way.length).map way.take
      let t := above.foldl (fun t dir => if (t.get? dir).isSome then t else t.put dir .directory) t
      match e, t.get? way with
      | .directory, some _ => t
      | e, _ => t.put way e)
    { home }

end FileTree

end Variability
