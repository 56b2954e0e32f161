import Variability.Yaml.Token

/-!
# Scalars

How the text of a scalar is put together from its lines. In plain and quoted scalars a line break
becomes a blank, and further breaks after it stay; in a block the lines stay as they are or are
joined, depending on the kind of block.

The loops are bounded by the number of characters left, since each round takes at least one.
-/

namespace Variability.Yaml

/-! ### Gaps between words -/

/-- The blanks and breaks between two words of a scalar. -/
structure Gap where
  /-- The blanks, unless a break follows them. -/
  blanks : List Char := []
  /-- The first line break. -/
  first : List Char := []
  /-- The line breaks after the first. -/
  more : List Char := []
  /-- Whether the gap goes over the end of a line. -/
  broken : Bool := false

namespace Gap

/-- What a gap becomes: its blanks, or a blank for a single break, or the breaks after the
first. -/
def text (g : Gap) : List Char :=
  if !g.broken then g.blanks
  else if g.first == ['\n'] then (if g.more.isEmpty then [' '] else g.more)
  else g.first ++ g.more

/-- Whether there is anything in the gap. -/
def isThere (g : Gap) : Bool := g.broken || !g.blanks.isEmpty

/-- Reads a gap on. In a line after the first no tab may stand before the given column. -/
def read (indent : Int) : Nat → Gap → Cursor → Except Problem (Gap × Cursor)
  | 0, g, c => .ok (g, c)
  | n + 1, g, c =>
    match c.rest with
    | [] => .ok (g, c)
    | x :: _ =>
      if isBlank x then
        if g.broken && (c.column : Int) < indent && x == '\t' then .error .tabIndentation
        else if g.broken then read indent n g (c.skip 1)
        else read indent n { g with blanks := g.blanks ++ [x] } (c.skip 1)
      else if isBreak x then
        if g.broken then read indent n { g with more := g.more ++ c.breakText } c.skipLine
        else read indent n { g with blanks := [], first := c.breakText, broken := true } c.skipLine
      else .ok (g, c)

end Gap

/-! ### Quoted scalars -/

/-- The value of a hexadecimal digit. -/
def hexValue? (c : Char) : Option Nat :=
  if c.isDigit then some (c.toNat - '0'.toNat)
  else if 'a' ≤ c && c ≤ 'f' then some (c.toNat - 'a'.toNat + 10)
  else if 'A' ≤ c && c ≤ 'F' then some (c.toNat - 'A'.toNat + 10)
  else none

/-- The number that exactly `n` hexadecimal digits stand for. -/
def hexNumber? (n : Nat) (cs : List Char) : Option Nat :=
  let digits := (cs.take n).filterMap hexValue?
  if digits.length == n then some (digits.foldl (fun a d => a * 16 + d) 0) else none

/-- The characters that a backslash and one more character stand for. -/
def simpleEscapes : List (Char × Nat) :=
  [('0', 0x00), ('a', 0x07), ('b', 0x08), ('t', 0x09), ('\t', 0x09), ('n', 0x0A), ('v', 0x0B),
    ('f', 0x0C), ('r', 0x0D), ('e', 0x1B), (' ', 0x20), ('"', 0x22), ('/', 0x2F), ('\\', 0x5C),
    ('N', 0x85), ('_', 0xA0), ('L', 0x2028), ('P', 0x2029)]

/-- The escapes with a number, and how many digits it has. -/
def numberEscapes : List (Char × Nat) := [('x', 2), ('u', 4), ('U', 8)]

/-- Reads an escape after its backslash: the character, and how many characters it takes. -/
def readEscape (cs : List Char) : Except Problem (Char × Nat) :=
  match cs with
  | [] => .error .badEscape
  | x :: rest =>
    match simpleEscapes.lookup x, numberEscapes.lookup x with
    | some code, _ => .ok (Char.ofNat code, 1)
    | none, some digits =>
      match hexNumber? digits rest with
      | some code =>
        if (0xD800 ≤ code && code ≤ 0xDFFF) || 0x10FFFF < code then .error .badEscape
        else .ok (Char.ofNat code, digits + 1)
      | none => .error .badEscape
    | none, none => .error .badEscape

/-- A word of a quoted scalar: its text, and whether an escaped line break ends it. -/
def quotedWord (quote : Char) : Nat → List Char → Cursor →
    Except Problem (List Char × Bool × Cursor)
  | 0, text, c => .ok (text, false, c)
  | n + 1, text, c =>
    match c.rest with
    | [] => .ok (text, false, c)
    | x :: rest =>
      if isBlank x || isBreak x then .ok (text, false, c)
      else if x == quote then
        if quote == '\'' && rest.head? == some '\'' then quotedWord quote n (text ++ [x]) (c.skip 2)
        else .ok (text, false, c)
      else if quote == '"' && x == '\\' then
        if rest.head?.any isBreak then .ok (text, true, (c.skip 1).skipLine)
        else
          match readEscape rest with
          | .ok (y, k) => quotedWord quote n (text ++ [y]) (c.skip (k + 1))
          | .error e => .error e
      else quotedWord quote n (text ++ [x]) (c.skip 1)

/-- The rest of a quoted scalar, and the cursor after the closing quote. -/
def readQuoted (quote : Char) : Nat → List Char → Cursor → Except Problem (List Char × Cursor)
  | 0, _, _ => .error .unclosedQuote
  | n + 1, text, c => do
    if c.atMark '-' || c.atMark '.' then .error .misplacedDocumentMark
    else if c.rest.isEmpty then .error .unclosedQuote
    else
      let (word, escapedBreak, c) ← quotedWord quote c.rest.length [] c
      if c.has quote && !escapedBreak then return (text ++ word, c.skip 1)
      let (gap, c) ← Gap.read 0 c.rest.length { broken := escapedBreak } c
      readQuoted quote n (text ++ word ++ gap.text) c

/-! ### Plain scalars -/

/-- Whether a character has a meaning of its own between brackets. -/
def isFlowMark (c : Char) : Bool := c == ',' || c == '[' || c == ']' || c == '\x7b' || c == '\x7d'

/-- A word of a plain scalar. -/
def plainWord (inFlow : Bool) : Nat → List Char → Cursor → Except Problem (List Char × Cursor)
  | 0, text, c => .ok (text, c)
  | n + 1, text, c =>
    match c.rest with
    | [] => .ok (text, c)
    | x :: rest =>
      if isBlank x || isBreak x then .ok (text, c)
      else if inFlow && x == ':' && rest.head?.any (fun y => isFlowMark y || y == '?') then
        .error .unexpectedColon
      else if (x == ':' && c.gapAt 1) || (inFlow && isFlowMark x) then .ok (text, c)
      else plainWord inFlow n (text ++ [x]) (c.skip 1)

/-- The rest of a plain scalar after a gap, and whether the scalar is followed by a line break. The
scalar goes on in lines that are indented to the given column. -/
def readPlain (inFlow : Bool) (indent : Int) : Nat → List Char → Gap → Cursor →
    Except Problem (List Char × Bool × Cursor)
  | 0, text, gap, c => .ok (text, gap.broken, c)
  | n + 1, text, gap, c => do
    if c.atMark '-' || c.atMark '.' || c.has '#' then return (text, gap.broken, c)
    let (word, next) ← plainWord inFlow c.rest.length [] c
    let text := if word.isEmpty then text else text ++ gap.text ++ word
    let gap := if word.isEmpty then gap else {}
    if !(next.hasThat fun x => isBlank x || isBreak x) then return (text, gap.broken, next)
    let (gap, next) ← Gap.read indent next.rest.length gap next
    if !inFlow && (next.column : Int) < indent then return (text, gap.broken, next)
    readPlain inFlow indent n text gap next

/-! ### Blocks -/

/-- What is done with the line breaks at the end of a block. -/
inductive Chomping where
  | strip
  | clip
  | keep
  deriving DecidableEq, Repr, Inhabited

/-- The header of a block. -/
structure BlockHeader where
  chomping : Chomping := .clip
  /-- How much deeper than its surroundings the block is indented, if that is said. -/
  increment : Option Nat := none

/-- The mark for the line breaks at the end of a block. -/
def chompingMark? (c : Char) : Option Chomping :=
  if c == '+' then some .keep else if c == '-' then some .strip else none

/-- The digit for the indentation of a block. -/
def incrementDigit? (c : Char) : Option Nat :=
  if c.isDigit then some (c.toNat - '0'.toNat) else none

/-- Reads the marks in the header of a block, in either order. -/
def readBlockMarks (c : Cursor) : Except Problem (BlockHeader × Cursor) :=
  let checked (h : BlockHeader) (c : Cursor) : Except Problem (BlockHeader × Cursor) :=
    if h.increment == some 0 then .error .badBlockHeader else .ok (h, c)
  match (c.ahead? 0).bind chompingMark?, (c.ahead? 0).bind incrementDigit? with
  | some k, _ =>
    match (c.ahead? 1).bind incrementDigit? with
    | some d => checked ⟨k, some d⟩ (c.skip 2)
    | none => .ok (⟨k, none⟩, c.skip 1)
  | none, some d =>
    match (c.ahead? 1).bind chompingMark? with
    | some k => checked ⟨k, some d⟩ (c.skip 2)
    | none => checked ⟨.clip, some d⟩ (c.skip 1)
  | none, none => .ok ({}, c)

/-- The header of a block with the comment after it, up to the next line. -/
def readBlockHeader (c : Cursor) : Except Problem (BlockHeader × Cursor) := do
  let (h, c) ← readBlockMarks c
  let c := c.skipWhile isBlank
  let c := if c.has '#' then c.skipWhile (!isBreak ·) else c
  if !c.atLineEnd then .error .badBlockHeader
  return (h, if c.rest.isEmpty then c else c.skipLine)

/-- The empty lines before the next line of a block: their breaks, the deepest indentation seen, and
the cursor at the text of the next line. With no indentation given, all blanks belong to it. -/
def readBlockBreaks (indent : Option Nat) : Nat → List Char → Nat → Cursor →
    Except Problem (List Char × Nat × Cursor)
  | 0, breaks, deepest, c => .ok (breaks, deepest, c)
  | n + 1, breaks, deepest, c =>
    let room := indent.map (· - c.column)
    let blanks := c.rest.takeWhile (· == ' ')
    let c := c.skip (match room with | some k => min k blanks.length | none => blanks.length)
    let deepest := max deepest c.column
    if c.has '\t' && indent.all (c.column < ·) then .error .tabIndentation
    else if c.hasThat isBreak then readBlockBreaks indent n (breaks ++ c.breakText) deepest c.skipLine
    else .ok (breaks, deepest, c)

/-- A block while it is read. -/
structure BlockReading where
  text : List Char := []
  /-- The break at the end of the last line. -/
  last : List Char := []
  /-- The breaks of the empty lines after it. -/
  breaks : List Char := []
  /-- Whether the last line began with a blank. -/
  indented : Bool := false

/-- The lines of a block at an indentation. -/
def readBlockLines (folded : Bool) (indent : Nat) : Nat → BlockReading → Cursor →
    Except Problem (BlockReading × Cursor)
  | 0, b, c => .ok (b, c)
  | n + 1, b, c => do
    if c.column != indent || c.rest.isEmpty then return (b, c)
    let blank := c.hasThat isBlank
    let joint :=
      if folded && b.last == ['\n'] && !b.indented && !blank then
        (if b.breaks.isEmpty then [' '] else [])
      else b.last
    let (line, c) := c.takeWhile (!isBreak ·)
    let last := c.breakText
    let c := if c.rest.isEmpty then c else c.skipLine
    let (breaks, _, c) ← readBlockBreaks (some indent) (c.rest.length + 1) [] 0 c
    readBlockLines folded indent n ⟨b.text ++ joint ++ b.breaks ++ line, last, breaks, blank⟩ c

/-- A block after its opening sign, inside of surroundings at the given indentation. -/
def readBlock (folded : Bool) (outer : Int) (c : Cursor) : Except Problem (List Char × Cursor) := do
  let (h, c) ← readBlockHeader c
  let given := h.increment.map fun k => (if 0 ≤ outer then outer.toNat + k else k)
  let (breaks, deepest, c) ← readBlockBreaks given (c.rest.length + 1) [] 0 c
  let indent := given.getD (max (max deepest (outer + 1).toNat) 1)
  let (b, c) ← readBlockLines folded indent (c.rest.length + 1) { breaks } c
  let ending := match h.chomping with
    | .strip => []
    | .clip => b.last
    | .keep => b.last ++ b.breaks
  return (b.text ++ ending, c)

end Variability.Yaml
