import Variability.Yaml.Scalar

/-!
# Scanning YAML

A YAML text as a list of tokens. Indentation is turned into tokens that open and close collections.
A key is recognised only by the colon after it, so the scanner remembers where a key may have begun,
and puts the token for it in front of what it has scanned since. A possible key must end on its
line, within 1024 characters.
-/

namespace Variability.Yaml

/-- A place where a key may have begun. -/
structure SimpleKey where
  /-- Whether the place can hold nothing but a key. -/
  required : Bool
  /-- How many tokens come before it. -/
  position : Nat
  index : Nat
  line : Nat
  column : Nat
  deriving Inhabited

/-- How far a text has been scanned. -/
structure Scanner where
  cursor : Cursor
  /-- The column of the innermost block collection. -/
  indent : Int := -1
  /-- The columns of those around it. -/
  outer : List Int := []
  /-- The possible key at each level of brackets, the innermost first; the last one is for outside of
  brackets. -/
  keys : List (Option SimpleKey) := [none]
  /-- Whether a key may begin here. -/
  keyAllowed : Bool := true
  tokens : Array Token := #[]
  deriving Inhabited

/-- Steps of scanning. -/
abbrev Scan := StateT Scanner (Except Problem)

namespace Scan

/-- The cursor. -/
def cursor : Scan Cursor := return (← get).cursor

/-- Moves the cursor. -/
def moveTo (c : Cursor) : Scan Unit := modify fun s => { s with cursor := c }

/-- Moves the cursor on by some characters. -/
def skip (n : Nat) : Scan Unit := do moveTo ((← cursor).skip n)

/-- Adds a token. -/
def emit (t : Token) : Scan Unit := modify fun s => { s with tokens := s.tokens.push t }

/-- Adds a token in front of those from a position on. -/
def emitAt (position : Nat) (t : Token) : Scan Unit := modify fun s =>
  { s with
    tokens := s.tokens.extract 0 position ++ #[t] ++ s.tokens.extract position s.tokens.size }

/-- Says whether a key may begin next. -/
def allowKey (b : Bool) : Scan Unit := modify fun s => { s with keyAllowed := b }

/-- Whether the cursor is between brackets. -/
def inFlow : Scan Bool := return 1 < (← get).keys.length

/-! ### Possible keys -/

/-- Forgets a possible key that is too far back. One that was required is an error. -/
def checkKey (c : Cursor) : Option SimpleKey → Except Problem (Option SimpleKey)
  | none => .ok none
  | some k =>
    if k.line < c.line || k.index + 1024 < c.index then
      if k.required then .error .missingColon else .ok none
    else .ok (some k)

/-- Forgets the possible keys that are too far back. -/
def dropStaleKeys : Scan Unit := do
  let s ← get
  let keys ← s.keys.mapM (fun k => (checkKey s.cursor k : Except Problem _))
  set { s with keys }

/-- Forgets the possible key at this level. One that was required is an error. -/
def dropKey : Scan Unit := do
  let s ← get
  match s.keys with
  | some k :: rest =>
    if k.required then throw .missingColon
    set { s with keys := none :: rest }
  | _ => return

/-- Remembers that a key may begin here. -/
def saveKey : Scan Unit := do
  let s ← get
  if s.keyAllowed then
    dropKey
    let flow ← inFlow
    let c := s.cursor
    let key : SimpleKey := {
      required := !flow && s.indent == (c.column : Int)
      position := s.tokens.size
      index := c.index, line := c.line, column := c.column }
    modify fun s => { s with keys := some key :: s.keys.drop 1 }

/-! ### Indentation -/

/-- Opens a block collection at a column, if it is deeper than the innermost one. The token for it
goes in front of those from the position on. -/
def openBlock (column position : Nat) (t : Token) : Scan Unit := do
  if !(← inFlow) && (← get).indent < (column : Int) then
    modify fun s => { s with outer := s.indent :: s.outer, indent := column }
    emitAt position t

/-- Opens a block collection at the cursor. -/
def openBlockHere (t : Token) : Scan Unit := do
  let s ← get
  openBlock s.cursor.column s.tokens.size t

/-- Closes the block collections that are deeper than a column, at most as many as are listed. -/
def closeBlocks (column : Int) : List Int → Scan Unit
  | [] => return
  | outer :: rest => do
    if column < (← get).indent then
      emit .blockEnd
      modify fun s => { s with indent := outer, outer := rest }
      closeBlocks column rest

/-- Closes the block collections that are deeper than a column. -/
def closeTo (column : Int) : Scan Unit := do
  if !(← inFlow) then closeBlocks column (← get).outer

/-! ### Between tokens -/

/-- Passes over blanks, comments and line breaks. A tab is no blank where a key may begin. After a
line break a key may begin, except between brackets. -/
def skipGap : Nat → Scan Unit
  | 0 => return
  | n + 1 => do
    let tabs := (← inFlow) || !(← get).keyAllowed
    let c := (← cursor).skipWhile fun x => x == ' ' || (tabs && x == '\t')
    let c := if c.has '#' then c.skipWhile (!isBreak ·) else c
    if c.hasThat isBreak then
      moveTo c.skipLine
      if !(← inFlow) then allowKey true
      skipGap n
    else moveTo c

/-! ### Directives, anchors and tags -/

/-- What follows a directive on its line: nothing but a comment. -/
def endDirective (c : Cursor) : Except Problem Cursor :=
  let c := c.skipWhile isBlank
  let c := if c.has '#' then c.skipWhile (!isBreak ·) else c
  if c.atLineEnd then .ok (if c.rest.isEmpty then c else c.skipLine) else .error .badDirective

/-- A number of at most nine digits. -/
def readNumber (c : Cursor) : Except Problem (Nat × Cursor) :=
  let (digits, c) := c.takeWhile Char.isDigit
  if digits.isEmpty || 9 < digits.length then .error .badDirective
  else .ok (digits.foldl (fun a d => a * 10 + (d.toNat - '0'.toNat)) 0, c)

/-- The handle of a tag: a sign, or a word between two signs. -/
def readHandle (c : Cursor) : List Char × Cursor :=
  let (word, next) := (c.skip 1).takeWhile isWordChar
  if next.has '!' then ('!' :: word ++ ['!'], next.skip 1) else ('!' :: word, next)

/-- Whether a character can stand in a tag; in some tags brackets and commas can, too. -/
def isTagChar (wide : Bool) (c : Char) : Bool :=
  isWordChar c || ";/?:@&=+$.!~*'()%".toList.contains c || (wide && [',', '[', ']'].contains c)

/-- A directive. -/
def directive : Scan Unit := do
  let c ← cursor
  let (word, next) := (c.skip 1).takeWhile isWordChar
  if word.isEmpty || !next.gapAt 0 then throw .badDirective
  let next := next.skipWhile isBlank
  if String.ofList word == "YAML" then
    let (major, next) ← readNumber next
    if !next.has '.' then throw .badDirective
    let (minor, next) ← readNumber (next.skip 1)
    moveTo (← endDirective next)
    emit (.versionDirective major minor)
  else if String.ofList word == "TAG" then
    if !next.has '!' then throw .badDirective
    let (handle, next) := readHandle next
    if (handle != ['!'] && handle.getLast? != some '!') || !next.hasThat isBlank then
      throw .badDirective
    let (uri, next) := (next.skipWhile isBlank).takeWhile (isTagChar true)
    if uri.isEmpty || !next.gapAt 0 then throw .badDirective
    moveTo (← endDirective next)
    emit (.tagDirective (String.ofList handle))
  else throw .badDirective

/-- The name of an anchor or an alias. -/
def anchorName : Scan String := do
  let (word, c) := ((← cursor).skip 1).takeWhile isWordChar
  if word.isEmpty || !(c.gapAt 0 || c.hasThat "?:,]\x7d%@`".toList.contains) then throw .badAnchor
  moveTo c
  return String.ofList word

/-- A tag; only its handle matters. -/
def tag : Scan Unit := do
  let c ← cursor
  let (handle, c) ← (
    if c.hasAt 1 '<' then
      let (uri, next) := (c.skip 2).takeWhile (isTagChar true)
      if uri.isEmpty || !next.has '>' then throw .badTag else pure ([], next.skip 1)
    else
      let (handle, next) := readHandle c
      if 1 < handle.length && handle.getLast? == some '!' then
        let (suffix, next) := next.takeWhile (isTagChar false)
        if suffix.isEmpty then throw .badTag else pure (handle, next)
      else
        let (suffix, next) := next.takeWhile (isTagChar false)
        pure (if handle.length == 1 && suffix.isEmpty then [] else ['!'], next) : Scan _)
  if !c.gapAt 0 && !((← inFlow) && c.has ',') then throw .badTag
  moveTo c
  emit (.tag (String.ofList handle))

/-! ### Tokens -/

/-- A mark between documents, or a directive: it closes all collections. -/
def startOver : Scan Unit := do
  closeTo (-1)
  dropKey
  allowKey false

/-- The end of the text. -/
def endStream : Scan Unit := do
  startOver
  emit .streamEnd

/-- An opening bracket. -/
def openFlow (t : Token) : Scan Unit := do
  saveKey
  modify fun s => { s with keys := none :: s.keys }
  allowKey true
  skip 1
  emit t

/-- A closing bracket. -/
def closeFlow (t : Token) : Scan Unit := do
  dropKey
  modify fun s => { s with keys := if 1 < s.keys.length then s.keys.drop 1 else s.keys }
  allowKey false
  skip 1
  emit t

/-- A comma between brackets. -/
def flowEntry : Scan Unit := do
  dropKey
  allowKey true
  skip 1
  emit .flowEntry

/-- The dash of a list entry. -/
def blockEntry : Scan Unit := do
  if !(← inFlow) then
    if !(← get).keyAllowed then throw .misplacedEntry
    openBlockHere .blockSequenceStart
  dropKey
  allowKey true
  skip 1
  emit .blockEntry

/-- The question mark of a key. -/
def explicitKey : Scan Unit := do
  let flow ← inFlow
  if !flow then
    if !(← get).keyAllowed then throw .misplacedKey
    openBlockHere .blockMappingStart
  dropKey
  allowKey (!flow)
  skip 1
  emit .key

/-- The colon of a value. What may have been a key is one now. -/
def valueMark : Scan Unit := do
  let s ← get
  match s.keys with
  | some k :: rest =>
    emitAt k.position .key
    openBlock k.column k.position .blockMappingStart
    modify fun s => { s with keys := none :: rest }
    allowKey false
  | _ =>
    let flow ← inFlow
    if !flow then
      if !s.keyAllowed then throw .misplacedValue
      openBlockHere .blockMappingStart
    allowKey (!flow)
  skip 1
  emit .value

/-- A scalar in quotes. -/
def quotedScalar (quote : Char) (style : Style) : Scan Unit := do
  saveKey
  allowKey false
  let c := (← cursor).skip 1
  let (text, c) ← readQuoted quote (c.rest.length + 1) [] c
  moveTo c
  emit (.scalar (String.ofList text) style)

/-- A block. -/
def blockScalar (folded : Bool) : Scan Unit := do
  dropKey
  allowKey true
  let s ← get
  let (text, c) ← readBlock folded s.indent (s.cursor.skip 1)
  moveTo c
  emit (.scalar (String.ofList text) (if folded then .folded else .literal))

/-- A plain scalar. After one that is followed by a line break a key may begin. -/
def plainScalar : Scan Unit := do
  saveKey
  allowKey false
  let s ← get
  let (text, broken, c) ←
    readPlain (← inFlow) (s.indent + 1) (s.cursor.rest.length + 1) [] {} s.cursor
  moveTo c
  emit (.scalar (String.ofList text) .plain)
  if broken then allowKey true

/-- Whether a plain scalar can begin at the cursor. -/
def canBePlain (flow : Bool) (c : Cursor) : Bool :=
  match c.ahead? 0 with
  | none => false
  | some x =>
    if x == '-' then !(c.ahead? 1).any isBlank
    else if x == '?' || x == ':' then !flow && !c.gapAt 1
    else !isBlank x && !isBreak x && !",[]\x7b\x7d#&*!|>'\"%@`".toList.contains x

/-- The next token. Says whether the text goes on. -/
def token : Scan Bool := do
  skipGap ((← cursor).rest.length + 1)
  dropStaleKeys
  closeTo (← cursor).column
  let c ← cursor
  let flow ← inFlow
  match c.ahead? 0 with
  | none => endStream; return false
  | some x =>
    if c.column == 0 && x == '%' then startOver; directive
    else if c.atMark '-' then startOver; skip 3; emit .documentStart
    else if c.atMark '.' then startOver; skip 3; emit .documentEnd
    else if x == '[' then openFlow .flowSequenceStart
    else if x == '\x7b' then openFlow .flowMappingStart
    else if x == ']' then closeFlow .flowSequenceEnd
    else if x == '\x7d' then closeFlow .flowMappingEnd
    else if x == ',' then flowEntry
    else if x == '-' && c.gapAt 1 then blockEntry
    else if x == '?' && (flow || c.gapAt 1) then explicitKey
    else if x == ':' && (flow || c.gapAt 1) then valueMark
    else if x == '*' then saveKey; allowKey false; emit (.reference (← anchorName))
    else if x == '&' then saveKey; allowKey false; emit (.anchor (← anchorName))
    else if x == '!' then saveKey; allowKey false; tag
    else if x == '|' && !flow then blockScalar false
    else if x == '>' && !flow then blockScalar true
    else if x == '\'' then quotedScalar x .singleQuoted
    else if x == '"' then quotedScalar x .doubleQuoted
    else if canBePlain flow c then plainScalar
    else throw .strayCharacter
    return true

/-- All tokens, at most `n`. -/
def all : Nat → Scan Unit
  | 0 => return
  | n + 1 => do if ← token then all n

end Scan

/-- The tokens of a text. A byte order mark at its beginning is passed over. Every token takes at
least one character, except for the last one. -/
def scan (text : String) : Except Problem (List Token) := do
  let cs := match text.toList with
    | '\uFEFF' :: cs => cs
    | cs => cs
  if !cs.all isAllowed then .error .controlCharacter
  let (_, s) ← (Scan.all (cs.length + 2)).run { cursor := { rest := cs } }
  return s.tokens.toList

end Variability.Yaml
