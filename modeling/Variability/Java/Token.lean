import Variability.Text.Blank

/-!
# Java tokens

A Java text as a list of tokens. Comments are tokens too, because a comment inside a type or a
list of types is part of what is read there. The sign `>` is always a token of its own, never
part of a longer operator such as `>>`: whether two of them close type arguments or shift a number
is known to the grammar only.

The scanner looks at the remaining characters, takes one token off them and goes on with the rest.
Any character that starts nothing else is a token by itself, so scanning never fails.
-/

namespace Variability.Java

/-- The classes of tokens. -/
inductive TokenKind where
  /-- A keyword or an identifier. -/
  | word
  | integer
  | floating
  | character
  /-- A string in quotes, or a text block. -/
  | text
  /-- An operator, bracket or separator. -/
  | sign
  | comment
  deriving DecidableEq, Repr, Inhabited

/-- A token with its text as written. -/
structure Token where
  kind : TokenKind
  text : String
  deriving DecidableEq, Repr, Inhabited

namespace Token

/-! ### Characters -/

/-- Whether an identifier can begin with the character. Beyond ASCII every character that is not
blank is taken for a letter. -/
def startsWord (c : Char) : Bool :=
  c.isAlpha || c = '_' || c = '$' || (0x80 ≤ c.toNat && !Text.isBlank c)

/-- Whether an identifier can go on with the character. -/
def inWord (c : Char) : Bool := startsWord c || c.isDigit

/-- Whether a number in the base with these digits can go on with the character. -/
def inNumber (isDigit : Char → Bool) (c : Char) : Bool := isDigit c || c = '_'

/-- Whether the character is a hexadecimal digit. -/
def isHexDigit (c : Char) : Bool :=
  c.isDigit || ('a' ≤ c && c ≤ 'f') || ('A' ≤ c && c ≤ 'F')

/-! ### The end of a token

Each function splits the characters after the first ones of a token into the rest of the token
and what follows it. -/

/-- The end of a block comment. -/
def blockComment : List Char → List Char × List Char
  | '*' :: '/' :: rest => (['*', '/'], rest)
  | c :: rest => let (t, r) := blockComment rest; (c :: t, r)
  | [] => ([], [])

/-- The end of a text in the given quotes; a backslash takes the next character with it. -/
def quoted (quote : Char) : List Char → List Char × List Char
  | '\\' :: c :: rest => let (t, r) := quoted quote rest; ('\\' :: c :: t, r)
  | c :: rest =>
    if c = quote then ([c], rest) else let (t, r) := quoted quote rest; (c :: t, r)
  | [] => ([], [])

/-- The end of a text block. -/
def textBlock : List Char → List Char × List Char
  | '"' :: '"' :: '"' :: rest => (['"', '"', '"'], rest)
  | '\\' :: c :: rest => let (t, r) := textBlock rest; ('\\' :: c :: t, r)
  | c :: rest => let (t, r) := textBlock rest; (c :: t, r)
  | [] => ([], [])

/-- An exponent after one of the given marks. -/
def exponent (marks : List Char) : List Char → List Char × List Char
  | m :: cs =>
    if marks.contains m then
      match cs with
      | s :: rest =>
        if s = '+' || s = '-' then
          let (t, r) := rest.span (inNumber Char.isDigit); (m :: s :: t, r)
        else let (t, r) := cs.span (inNumber Char.isDigit); (m :: t, r)
      | [] => ([m], [])
    else ([], m :: cs)
  | [] => ([], [])

/-- At most one character out of the given ones. -/
def suffix (marks : List Char) : List Char → List Char × List Char
  | m :: cs => if marks.contains m then ([m], cs) else ([], m :: cs)
  | [] => ([], [])

/-- A point and the digits after it. -/
def fraction (isDigit : Char → Bool) : List Char → List Char × List Char
  | '.' :: cs => let (t, r) := cs.span (inNumber isDigit); ('.' :: t, r)
  | cs => ([], cs)

/-- The rest of a number after its whole part: fraction, exponent and suffix. With any of the
three, except for the suffix of long integers, the number is a floating one. -/
def numberTail (isDigit : Char → Bool) (marks : List Char) (cs : List Char) :
    TokenKind × List Char × List Char :=
  let (f, cs) := fraction isDigit cs
  let (e, cs) := exponent marks cs
  let (s, cs) := suffix ['f', 'F', 'd', 'D', 'l', 'L'] cs
  let whole := f.isEmpty && e.isEmpty && (s.isEmpty || s = ['l'] || s = ['L'])
  (if whole then .integer else .floating, f ++ e ++ s, cs)

/-- A number. -/
def number : List Char → TokenKind × List Char × List Char
  | '0' :: x :: cs =>
    if x = 'x' || x = 'X' then
      let (d, cs) := cs.span (inNumber isHexDigit)
      let (k, t, r) := numberTail isHexDigit ['p', 'P'] cs
      (k, '0' :: x :: d ++ t, r)
    else if x = 'b' || x = 'B' || x = 'o' || x = 'O' then
      let (d, cs) := cs.span (inNumber Char.isDigit)
      let (s, r) := suffix ['l', 'L'] cs
      (.integer, '0' :: x :: d ++ s, r)
    else
      let (d, cs) := (x :: cs).span (inNumber Char.isDigit)
      let (k, t, r) := numberTail Char.isDigit ['e', 'E'] cs
      (k, '0' :: d ++ t, r)
  | cs =>
    let (d, cs) := cs.span (inNumber Char.isDigit)
    let (k, t, r) := numberTail Char.isDigit ['e', 'E'] cs
    (k, d ++ t, r)

/-- The signs of more than one character, longer ones first. -/
def longSigns : List (List Char) :=
  ["...", "<<=", "->", "::", "++", "--", "&&", "||", "==", "!=", "<=", ">=", "+=", "-=", "*=", "/=",
    "&=", "|=", "^=", "%=", "<<"].map String.toList

/-- A sign. -/
def sign (c : Char) (cs : List Char) : List Char × List Char :=
  match longSigns.find? (·.isPrefixOf (c :: cs)) with
  | some s => (s, (c :: cs).drop s.length)
  | none => ([c], cs)

/-! ### Scanning -/

/-- The first token of a text that begins with `c`, which is not blank. -/
def first (c : Char) (cs : List Char) : Token × List Char :=
  let make (kind : TokenKind) (text : List Char) : Token := ⟨kind, String.ofList text⟩
  let isPoint := match c, cs with
    | '.', d :: _ => d.isDigit
    | _, _ => false
  if startsWord c then
    let (t, r) := cs.span inWord; (make .word (c :: t), r)
  else if c.isDigit || isPoint then
    let (k, t, r) := number (c :: cs); (make k t, r)
  else match c, cs with
    | '/', '/' :: _ => let (t, r) := cs.span (· != '\n'); (make .comment (c :: t), r)
    | '/', '*' :: rest => let (t, r) := blockComment rest; (make .comment (c :: '*' :: t), r)
    | '"', '"' :: '"' :: rest => let (t, r) := textBlock rest; (make .text (c :: c :: c :: t), r)
    | '"', _ => let (t, r) := quoted c cs; (make .text (c :: t), r)
    | '\'', _ => let (t, r) := quoted c cs; (make .character (c :: t), r)
    | _, _ => let (t, r) := sign c cs; (make .sign t, r)

/-- The tokens of the characters. The first argument bounds the number of steps; the number of
characters is enough, since every step takes at least one. -/
def scanChars : Nat → List Char → List Token
  | 0, _ => []
  | _, [] => []
  | n + 1, c :: cs =>
    if Text.isBlank c then scanChars n cs
    else let (t, r) := first c cs; t :: scanChars n r

/-- The tokens of a text. A byte order mark at its start is passed over. -/
def scan (s : String) : List Token :=
  let cs := match s.toList with
    | c :: cs => if c = '\uFEFF' then cs else c :: cs
    | [] => []
  scanChars cs.length cs

/-! ### Words -/

/-- The words that cannot be used as a name. -/
def reserved : List String :=
  ["abstract", "assert", "boolean", "break", "byte", "case", "catch", "char", "class", "continue",
    "default", "do", "double", "else", "enum", "extends", "false", "final", "finally", "float",
    "for", "if", "implements", "import", "instanceof", "int", "interface", "long", "native", "new",
    "null", "package", "private", "protected", "public", "return", "short", "static", "strictfp",
    "super", "switch", "synchronized", "this", "throw", "throws", "transient", "true", "try",
    "void", "volatile", "while"]

/-- The words that are types by themselves. -/
def primitiveTypes : List String :=
  ["boolean", "byte", "char", "double", "float", "int", "long", "short", "void"]

/-- Whether the token is a comment. -/
def isComment (t : Token) : Bool := t.kind == .comment

/-- Whether the token is the given sign. -/
def isSign (t : Token) (s : String) : Bool := t.kind == .sign && t.text == s

/-- Whether the token is the given word. -/
def isWord (t : Token) (w : String) : Bool := t.kind == .word && t.text == w

/-- Whether the token is a name. -/
def isName (t : Token) : Bool := t.kind == .word && !reserved.contains t.text

/-- The text of the tokens, comments among them, without blanks. -/
def compact (ts : List Token) : String := String.join (ts.map fun t => Text.compact t.text)

end Token

end Variability.Java
