/-!
# Dotted names

Type and package names are texts whose segments are divided by dots, possibly followed by
generic arguments in angle brackets. This module cuts such names into their parts. All cuts
are stated on lists of characters, so that each of them has a short law of its own; the
`String` versions only convert.
-/

namespace Variability.Text

/-- Whether `needle` occurs somewhere in `cs`. -/
def occursIn (needle : List Char) : List Char → Bool
  | [] => needle.isEmpty
  | c :: cs => needle.isPrefixOf (c :: cs) || occursIn needle cs

/-- Whether `s` begins with `start`. -/
def startsWith (s start : String) : Bool :=
  start.toList.isPrefixOf s.toList

/-- Whether `s` ends with `ending`. -/
def endsWith (s ending : String) : Bool :=
  ending.toList.isSuffixOf s.toList

/-- Whether `needle` occurs somewhere in `s`. -/
def contains (s needle : String) : Bool :=
  occursIn needle.toList s.toList

/-- Cuts at every `d`: the pieces between the occurrences of `d`, always at least one. -/
def pieces (d : Char) : List Char → List (List Char)
  | [] => [[]]
  | c :: cs =>
    if c = d then [] :: pieces d cs
    else match pieces d cs with
      | [] => [[c]]
      | p :: ps => (c :: p) :: ps

/-- The pieces of `s` between the occurrences of `d`. -/
def split (s : String) (d : Char) : List String :=
  (pieces d s.toList).map String.ofList

/-- What follows the last `d`, or everything when there is none. -/
def afterLast (d : Char) (cs : List Char) : List Char :=
  (cs.reverse.takeWhile (· != d)).reverse

/-- `n` copies of `s` in a row. -/
def replicate (n : Nat) (s : String) : String :=
  String.join (List.replicate n s)

end Variability.Text

namespace Variability.Name

/-- The last segment of a dotted name. -/
def lastSegment (name : String) : String :=
  String.ofList (Text.afterLast '.' name.toList)

/-- A name without its generic arguments: everything before the first angle bracket. -/
def erasure (name : String) : String :=
  String.ofList (name.toList.takeWhile (· != '<'))

/-- The last segment of a name without its generic arguments. -/
def simple (name : String) : String :=
  lastSegment (erasure name)

/-- `outer.name`. -/
def child (outer name : String) : String :=
  outer ++ "." ++ name

/-- A name declared in a package; the unnamed package adds nothing. -/
def qualify : Option String → String → String
  | none, name => name
  | some package, name => if package.isEmpty then name else child package name

end Variability.Name
