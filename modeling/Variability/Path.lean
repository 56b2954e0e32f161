import Variability.Text.Name

/-!
# Paths

A path is a text whose parts are divided by slashes. Empty parts and parts of one dot mean nothing,
except for a slash or a single dot at the very beginning, which are kept apart as the anchor of the
path. Two dots are a part of their own, but not the name of a file.
-/

namespace Variability.Path

/-- A path cut into its anchor, which is `/`, `.` or nothing, and the parts after it. -/
def cut (path : String) : String × List String :=
  match path.toList with
  | '/' :: rest => ("/", (Text.pieces '/' rest).map String.ofList)
  | ['.'] => (".", [])
  | '.' :: '/' :: rest => (".", (Text.pieces '/' ('/' :: rest)).map String.ofList)
  | cs => ("", (Text.pieces '/' cs).map String.ofList)

/-- Whether a part means nothing. -/
def isVoid (part : String) : Bool := part == "" || part == "."

/-- The parts of a path from the last one to the first, without void ones at the end of the
path. -/
def backwards (path : String) : List String := (cut path).2.reverse.dropWhile isVoid

/-- The parts of a path that mean something. -/
def parts (path : String) : List String := (cut path).2.filter (!isVoid ·)

/-- The name of the file that a path leads to. -/
def fileName? (path : String) : Option String :=
  match backwards path with
  | part :: _ => if part == ".." then none else some part
  | [] => none

/-- The path of the directory that holds what a path leads to. -/
def parent? (path : String) : Option String :=
  let anchor := (cut path).1
  match backwards path with
  | _ :: rest => some (anchor ++ String.intercalate "/" (rest.dropWhile isVoid).reverse)
  | [] => if anchor == "." then some "" else none

/-- A relative path taken from a directory. -/
def join (dir path : String) : String :=
  if Text.startsWith path "/" || dir == "" then path
  else if Text.endsWith dir "/" then dir ++ path
  else dir ++ "/" ++ path

/-- A path with another file name; a path that has none gets one. -/
def withFileName (path name : String) : String :=
  match fileName? path with
  | some _ => join ((parent? path).getD "") name
  | none => join path name

/-- The ending of a file name after its last dot; a dot at the beginning of the name does not
count. -/
def extension? (path : String) : Option String :=
  (fileName? path).bind fun name =>
    let ending := Text.afterLast '.' name.toList
    if ending.length + 1 < name.length then some (String.ofList ending) else none

end Variability.Path
