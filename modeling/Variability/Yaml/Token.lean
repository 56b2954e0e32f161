/-!
# YAML tokens

The tokens of a YAML text, the reasons for which a text is refused, and a cursor that knows the
line and the column it is at.
-/

namespace Variability.Yaml

/-- How a scalar is written. -/
inductive Style where
  | plain
  | singleQuoted
  | doubleQuoted
  /-- A block that keeps its line breaks. -/
  | literal
  /-- A block whose lines are joined. -/
  | folded
  deriving DecidableEq, Repr, Inhabited

/-- A token. The structure that indentation stands for has tokens of its own. -/
inductive Token where
  | versionDirective (major minor : Nat)
  | tagDirective (handle : String)
  | documentStart
  | documentEnd
  | blockSequenceStart
  | blockMappingStart
  | blockEnd
  | flowSequenceStart
  | flowSequenceEnd
  | flowMappingStart
  | flowMappingEnd
  | blockEntry
  | flowEntry
  | key
  | value
  | reference (name : String)
  | anchor (name : String)
  | tag (handle : String)
  | scalar (text : String) (style : Style)
  | streamEnd
  deriving DecidableEq, Repr, Inhabited

/-- Why a text is refused. -/
inductive Problem where
  | controlCharacter
  | strayCharacter
  | missingColon
  | misplacedEntry
  | misplacedKey
  | misplacedValue
  | badDirective
  | badAnchor
  | badTag
  | badBlockHeader
  | tabIndentation
  | unclosedQuote
  | misplacedDocumentMark
  | badEscape
  | unexpectedColon
  | missingDocumentStart
  | missingNode
  | missingBlockEntry
  | missingBlockKey
  | missingFlowSeparator
  | unknownAnchor
  | unknownTagHandle
  | severalDocuments
  | tooDeep
  deriving DecidableEq, Repr, Inhabited

/-- The problem as it is shown. -/
def Problem.message : Problem → String
  | controlCharacter => "control characters are not allowed"
  | strayCharacter => "found character that cannot start any token"
  | missingColon => "could not find expected ':'"
  | misplacedEntry => "block sequence entries are not allowed in this context"
  | misplacedKey => "mapping keys are not allowed in this context"
  | misplacedValue => "mapping values are not allowed in this context"
  | badDirective => "found a malformed directive"
  | badAnchor => "did not find expected alphabetic or numeric character"
  | badTag => "found a malformed tag"
  | badBlockHeader => "did not find expected comment or line break"
  | tabIndentation => "found a tab character where an indentation space is expected"
  | unclosedQuote => "found unexpected end of stream"
  | misplacedDocumentMark => "found unexpected document indicator"
  | badEscape => "found unknown escape character"
  | unexpectedColon => "found unexpected ':'"
  | missingDocumentStart => "did not find expected <document start>"
  | missingNode => "did not find expected node content"
  | missingBlockEntry => "did not find expected '-' indicator"
  | missingBlockKey => "did not find expected key"
  | missingFlowSeparator => "did not find expected ',' or closing bracket"
  | unknownAnchor => "unknown anchor"
  | unknownTagHandle => "found undefined tag handle"
  | severalDocuments => "more than one document"
  | tooDeep => "nested too deeply"

/-! ### Characters -/

/-- Whether a character is a blank inside of a line. -/
def isBlank (c : Char) : Bool := c == ' ' || c == '\t'

/-- Whether a character ends a line. -/
def isBreak (c : Char) : Bool :=
  c == '\n' || c == '\r' || c == '\u0085' || c == '\u2028' || c == '\u2029'

/-- Whether a character can be part of an anchor or of the handle of a tag. -/
def isWordChar (c : Char) : Bool := c.isAlphanum || c == '_' || c == '-'

/-- Whether a character is allowed in a text at all. -/
def isAllowed (c : Char) : Bool :=
  let n := c.toNat
  n == 0x09 || n == 0x0A || n == 0x0D || (0x20 ≤ n && n ≤ 0x7E) || n == 0x85 ||
    (0xA0 ≤ n && n ≤ 0xD7FF) || (0xE000 ≤ n && n ≤ 0xFFFD && n != 0xFEFF) || 0x10000 ≤ n

/-! ### Cursors -/

/-- A place in a text and what follows it. -/
structure Cursor where
  rest : List Char
  index : Nat := 0
  line : Nat := 0
  column : Nat := 0
  deriving Inhabited

namespace Cursor

/-- The character `n` places ahead. -/
def ahead? (c : Cursor) (n : Nat) : Option Char := c.rest[n]?

/-- Whether the given character is `n` places ahead. -/
def hasAt (c : Cursor) (n : Nat) (x : Char) : Bool := c.ahead? n == some x

/-- Whether the given character comes next. -/
def has (c : Cursor) (x : Char) : Bool := c.hasAt 0 x

/-- Whether a character that passes the test comes next. -/
def hasThat (c : Cursor) (p : Char → Bool) : Bool := (c.ahead? 0).any p

/-- Whether a blank, a line break or the end is `n` places ahead. -/
def gapAt (c : Cursor) (n : Nat) : Bool := (c.ahead? n).all fun x => isBlank x || isBreak x

/-- Whether the end of the line comes next. -/
def atLineEnd (c : Cursor) : Bool := (c.ahead? 0).all isBreak

/-- Whether the mark between documents comes next: three times the given character at the beginning
of a line, and a gap. -/
def atMark (c : Cursor) (x : Char) : Bool :=
  c.column == 0 && c.hasAt 0 x && c.hasAt 1 x && c.hasAt 2 x && c.gapAt 3

/-- The cursor `n` characters further on the same line. -/
def skip (c : Cursor) (n : Nat) : Cursor :=
  { c with rest := c.rest.drop n, index := c.index + n, column := c.column + n }

/-- The cursor at the beginning of the next line. A carriage return and a line feed are one
break. -/
def skipLine (c : Cursor) : Cursor :=
  match c.rest with
  | '\r' :: '\n' :: rest => ⟨rest, c.index + 2, c.line + 1, 0⟩
  | _ :: rest => ⟨rest, c.index + 1, c.line + 1, 0⟩
  | [] => c

/-- The line break that comes next, as it is kept in a scalar. -/
def breakText (c : Cursor) : List Char :=
  match c.rest with
  | x :: _ => if x == '\u2028' || x == '\u2029' then [x] else ['\n']
  | [] => []

/-- The characters that pass a test, and the cursor after them. -/
def takeWhile (c : Cursor) (p : Char → Bool) : List Char × Cursor :=
  let taken := c.rest.takeWhile p
  (taken, c.skip taken.length)

/-- The cursor after the characters that pass a test. -/
def skipWhile (c : Cursor) (p : Char → Bool) : Cursor := (c.takeWhile p).2

end Cursor

end Variability.Yaml
