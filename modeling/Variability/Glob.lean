import Variability.Text.Name

/-!
# Glob patterns

Patterns for paths. `*` stands for any characters, slashes included, and `?` for one of them;
`[...]` for one out of a class, `[!...]` or `[^...]` for one outside of it; `{a,b}` for one of
several patterns; a backslash takes its meaning away from the next character. Two stars between
slashes, or between a slash and the end of the pattern, stand for any number of directories.

A pattern is matched against the bytes of a path, so one character beyond ASCII takes several
question marks.
-/

namespace Variability

/-- A part of a pattern. -/
inductive GlobPart where
  | literal (c : Char)
  /-- One byte. -/
  | any
  /-- Any bytes. -/
  | anything
  /-- Directories at the beginning: nothing, or anything up to a slash. -/
  | leadingDirectories
  /-- Whatever is in a directory: a slash and anything after it. -/
  | trailingDirectories
  /-- Directories in between: a slash, or anything between two slashes. -/
  | innerDirectories
  /-- One byte inside or outside of a class of ranges of characters. -/
  | oneOf (negated : Bool) (ranges : List (Char × Char))
  /-- One of several patterns. Those that stand for nothing do not count. -/
  | alternatives (branches : List (List GlobPart))
  deriving Inhabited

/-- A pattern with its text. -/
structure Glob where
  text : String
  parts : List GlobPart
  deriving Inhabited

namespace Glob

/-! ### Errors -/

/-- Why a text is no pattern. -/
inductive Problem where
  | unclosedClass
  | invalidRange (low high : Char)
  | unopenedAlternatives
  | unclosedAlternatives
  | danglingEscape
  deriving DecidableEq, Repr, Inhabited

/-- The problem as it is shown. -/
def Problem.message : Problem → String
  | unclosedClass => "unclosed character class; missing ']'"
  | invalidRange low high =>
    "invalid range; '" ++ String.singleton low ++ "' > '" ++ String.singleton high ++ "'"
  | unopenedAlternatives =>
    "unopened alternate group; missing '\x7b' (maybe escape '\x7d' with '[\x7d]'?)"
  | unclosedAlternatives =>
    "unclosed alternate group; missing '\x7d' (maybe escape '\x7b' with '[\x7b]'?)"
  | danglingEscape => "dangling '\\'"

/-- A text that is no pattern, and why. -/
structure Error where
  text : String
  problem : Problem
  deriving DecidableEq, Repr, Inhabited

/-- The error as it is shown. -/
def Error.message (e : Error) : String :=
  "error parsing glob '" ++ e.text ++ "': " ++ e.problem.message

/-! ### Reading -/

/-- A group of alternatives that is not closed yet: the parts in front of it, and its branches that are
complete; both from the last one on. -/
structure Group where
  before : List GlobPart
  branches : List (List GlobPart)

/-- How far a pattern has been read. -/
structure Reading where
  /-- The groups that are open, the innermost one first. -/
  groups : List Group := []
  /-- The parts of the current branch, from the last one on. -/
  parts : List GlobPart := []
  /-- The character before the current one. -/
  last : Option Char := none

namespace Reading

/-- Adds a part. -/
def push (r : Reading) (p : GlobPart) : Reading := { r with parts := p :: r.parts }

/-- Takes note of the last character that was read. -/
def after (r : Reading) (c : Char) : Reading := { r with last := some c }

/-- Opens a group. -/
def openGroup (r : Reading) : Reading :=
  { r with groups := ⟨r.parts, []⟩ :: r.groups, parts := [] }

/-- Begins the next branch of the innermost group; outside of groups a comma is a comma. -/
def nextBranch (r : Reading) : Reading :=
  match r.groups with
  | g :: gs => { r with groups := { g with branches := r.parts.reverse :: g.branches } :: gs, parts := [] }
  | [] => r.push (.literal ',')

/-- Closes the innermost group. -/
def closeGroup (r : Reading) : Except Problem Reading :=
  match r.groups with
  | g :: gs =>
    .ok { r with
      groups := gs
      parts := .alternatives (r.parts.reverse :: g.branches).reverse :: g.before }
  | [] => .error .unopenedAlternatives

/-- Replaces the slash in front of two stars by the directories they stand for. -/
def pushDirectories (r : Reading) (p : GlobPart) : Reading :=
  match r.parts with
  | .leadingDirectories :: _ => r
  | .trailingDirectories :: _ => r
  | _ :: rest => { r with parts := p :: rest }
  | [] => r.push p

/-- Reads two stars, given what follows them; also the rest, since a slash after the stars belongs to
them. Where they cannot stand for directories they are two single stars. -/
def stars (r : Reading) (rest : List Char) : Reading × List Char :=
  let plain := ((r.push .anything).push .anything |>.after '*', rest)
  let inGroup := !r.groups.isEmpty
  if r.parts.isEmpty then
    match rest with
    | [] => ((r.push .leadingDirectories).after '*', [])
    | '/' :: rest => ((r.push .leadingDirectories).after '/', rest)
    | _ => plain
  else if r.last == some '/' || (inGroup && (r.last == some ',' || r.last == some '\x7b')) then
    match rest with
    | [] => ((r.pushDirectories .trailingDirectories).after '*', [])
    | '/' :: rest => ((r.pushDirectories .innerDirectories).after '/', rest)
    | c :: _ =>
      if inGroup && (c == ',' || c == '\x7d') then
        ((r.pushDirectories .trailingDirectories).after '*', rest)
      else plain
  else plain

end Reading

/-- A class while it is read: its ranges from the last one on. -/
structure ClassReading where
  ranges : List (Char × Char) := []
  isFirst : Bool := true
  /-- Whether a dash waits for the end of its range. -/
  inRange : Bool := false

/-- Adds a character to a class; after a dash it is the end of the last range. -/
def ClassReading.add (k : ClassReading) (c : Char) : Except Problem ClassReading :=
  match k.inRange, k.ranges with
  | true, (low, _) :: rest =>
    if c < low then .error (.invalidRange low c) else .ok ⟨(low, c) :: rest, false, false⟩
  | _, ranges => .ok ⟨(c, c) :: ranges, false, false⟩

/-- Reads the rest of a class: its ranges, and what follows it. A closing bracket or a dash at the
beginning stands for itself, and so does a dash at the end. -/
def readClass (k : ClassReading) : List Char → Except Problem (List (Char × Char) × List Char)
  | [] => .error .unclosedClass
  | c :: rest =>
    if c == ']' && !k.isFirst then
      .ok ((if k.inRange then ('-', '-') :: k.ranges else k.ranges).reverse, rest)
    else if c == '-' && !k.isFirst && !k.inRange then readClass { k with inRange := true } rest
    else do readClass (← k.add c) rest

/-- Reads a class after its opening bracket. -/
def readClassPart (rest : List Char) : Except Problem (GlobPart × List Char) := do
  match rest with
  | c :: body =>
    if c == '!' || c == '^' then
      let (ranges, rest) ← readClass {} body
      return (.oneOf true ranges, rest)
    else
      let (ranges, rest) ← readClass {} rest
      return (.oneOf false ranges, rest)
  | [] => .error .unclosedClass

/-- Reads characters on. Every step takes at least one of them, so their number bounds the steps. -/
def readParts : Nat → Reading → List Char → Except Problem Reading
  | 0, r, _ => .ok r
  | _, r, [] => .ok r
  | n + 1, r, c :: rest =>
    if c == '?' then readParts n ((r.push .any).after c) rest
    else if c == '*' then
      match rest with
      | '*' :: rest => let (r, rest) := r.stars rest; readParts n r rest
      | _ => readParts n ((r.push .anything).after c) rest
    else if c == '[' then
      match readClassPart rest with
      | .ok (p, rest) => readParts n ((r.push p).after ']') rest
      | .error e => .error e
    else if c == '\x7b' then readParts n (r.openGroup.after c) rest
    else if c == '\x7d' then
      match r.closeGroup with
      | .ok r => readParts n (r.after c) rest
      | .error e => .error e
    else if c == ',' then readParts n (r.nextBranch.after c) rest
    else if c == '\\' then
      match rest with
      | d :: rest => readParts n ((r.push (.literal d)).after d) rest
      | [] => .error .danglingEscape
    else readParts n ((r.push (.literal c)).after c) rest

/-- Reads a pattern. -/
def read (text : String) : Except Error Glob :=
  match readParts text.length {} text.toList with
  | .error problem => .error ⟨text, problem⟩
  | .ok r =>
    if r.groups.isEmpty then .ok ⟨text, r.parts.reverse⟩ else .error ⟨text, .unclosedAlternatives⟩

/-! ### Matching -/

/-- Bytes and all their endings, the longest first. -/
def endings : List UInt8 → List (List UInt8)
  | [] => [[]]
  | b :: bs => (b :: bs) :: endings bs

/-- What follows a slash at the beginning. -/
def afterSlash : List UInt8 → List (List UInt8)
  | b :: bs => if b == 47 then [bs] else []
  | [] => []

/-- What follows any slash. -/
def afterSlashes (bs : List UInt8) : List (List UInt8) := (endings bs).flatMap afterSlash

/-- What follows the given bytes. -/
def afterBytes (want bs : List UInt8) : List (List UInt8) :=
  if want.isPrefixOf bs then [bs.drop want.length] else []

/-- The bytes of a character. -/
def bytesOf (c : Char) : List UInt8 := (String.singleton c).toUTF8.toList

/-- The ranges of bytes that a range of characters stands for. A character of several bytes stands
for each of them, and the range goes from the last byte of one end to the first of the other. -/
def byteRanges (range : Char × Char) : List (UInt8 × UInt8) :=
  let low := bytesOf range.1
  let high := bytesOf range.2
  if range.1 == range.2 then low.map fun b => (b, b)
  else
    low.dropLast.map (fun b => (b, b)) ++ [(low.getLastD 0, high.headD 0)] ++
      (high.drop 1).map (fun b => (b, b))

/-- Whether a byte is in a class of ranges. -/
def inClass (ranges : List (Char × Char)) (b : UInt8) : Bool :=
  (ranges.flatMap byteRanges).any fun (low, high) => low ≤ b && b ≤ high

mutual

/-- Whether a part stands for nothing at all: a group without any branch that stands for
something. -/
def isVoid : GlobPart → Bool
  | .alternatives branches => areVoid branches
  | _ => false

/-- Whether all parts of a sequence stand for nothing. -/
def isVoidSequence : List GlobPart → Bool
  | [] => true
  | p :: ps => isVoid p && isVoidSequence ps

/-- Whether all branches stand for nothing. -/
def areVoid : List (List GlobPart) → Bool
  | [] => true
  | b :: bs => isVoidSequence b && areVoid bs

end

mutual

/-- What can be left of the bytes after a part has taken some from the front. -/
def rests : GlobPart → List UInt8 → List (List UInt8)
  | .literal c, bs => afterBytes (bytesOf c) bs
  | .any, bs => bs.tail?.toList
  | .anything, bs => endings bs
  | .leadingDirectories, bs => (bs :: afterSlash bs ++ afterSlashes bs).eraseDups
  | .trailingDirectories, bs => ((afterSlash bs).flatMap endings).eraseDups
  | .innerDirectories, bs =>
    let inside := afterSlash bs
    (inside ++ inside.flatMap afterSlashes).eraseDups
  | .oneOf negated ranges, bs =>
    match bs with
    | b :: rest => if inClass ranges b != negated then [rest] else []
    | [] => []
  | .alternatives branches, bs =>
    if areVoid branches then [bs] else (restsOfAny branches bs).eraseDups

/-- What can be left after a sequence of parts. -/
def restsOfAll : List GlobPart → List UInt8 → List (List UInt8)
  | [], bs => [bs]
  | p :: ps, bs => ((rests p bs).flatMap (restsOfAll ps)).eraseDups

/-- What can be left after one of several sequences that stands for something. -/
def restsOfAny : List (List GlobPart) → List UInt8 → List (List UInt8)
  | [], _ => []
  | b :: branches, bs =>
    (if isVoidSequence b then [] else restsOfAll b bs) ++ restsOfAny branches bs

end

/-- Whether a pattern matches a path. Two stars alone match everything. -/
def isMatch (g : Glob) (path : String) : Bool :=
  match g.parts with
  | [.leadingDirectories] => true
  | parts => (restsOfAll parts path.toUTF8.toList).contains []

end Glob

end Variability
