import Variability.Java.Token

/-!
# Readers

A reader takes a value off the front of a list of tokens, or fails and takes nothing. Readers are
put together in the usual ways: one after the other, one instead of the other, repeatedly. Comments
are passed over by every reader that asks for a token, and can be asked for where they matter.

A loop is bounded by the tokens left when it begins.
-/

namespace Variability.Java

/-- A reader of values of type `α`. -/
abbrev Reader (α : Type) := StateT (List Token) Option α

namespace Reader

variable {α β : Type}

/-! ### Single tokens -/

/-- The next token that is no comment. -/
def next : Reader Token := fun ts =>
  match ts.dropWhile Token.isComment with
  | t :: rest => some (t, rest)
  | [] => none

/-- The next token, if it passes the test. -/
def want (p : Token → Bool) : Reader Token := do
  let t ← next
  if p t then return t else failure

/-- The given sign. -/
def sign (s : String) : Reader Unit := do
  let _ ← want (·.isSign s)

/-- The given word. -/
def word (w : String) : Reader Unit := do
  let _ ← want (·.isWord w)

/-- A name. -/
def name : Reader String := do
  return (← want Token.isName).text

/-! ### Putting readers together -/

/-- What the reader reads, or nothing. -/
def opt (p : Reader α) : Reader (Option α) := fun ts =>
  match p ts with
  | some (a, rest) => some (some a, rest)
  | none => some (none, ts)

/-- Whether the reader can read here; nothing is taken. -/
def ahead (p : Reader α) : Reader Bool := fun ts => some ((p ts).isSome, ts)

/-- Nothing, and only where the reader can read. -/
def expect (p : Reader α) : Reader Unit := do
  if ← ahead p then return else failure

/-- As many values as can be read one after the other, at most one for each token of the bound. -/
def upTo (p : Reader α) : List Token → List Token → List α × List Token
  | [], ts => ([], ts)
  | _ :: bound, ts =>
    match p ts with
    | some (a, rest) => let (as, r) := upTo p bound rest; (a :: as, r)
    | none => ([], ts)

/-- As many values as can be read one after the other. -/
def many (p : Reader α) : Reader (List α) := fun ts => some (upTo p ts ts)

/-- One value or more, with a separator between them. -/
def sepBy1 (p : Reader α) (sep : Reader β) : Reader (List α) := do
  let a ← p
  let as ← many (sep *> p)
  return a :: as

/-- Any number of values with a separator between them. -/
def sepBy (p : Reader α) (sep : Reader β) : Reader (List α) :=
  sepBy1 p sep <|> pure []

/-- Extends a value by as many steps as can be read, at most one for each token of the bound. -/
def extendUpTo (step : α → Reader α) : List Token → α → List Token → α × List Token
  | [], a, ts => (a, ts)
  | _ :: bound, a, ts =>
    match step a ts with
    | some (a, rest) => extendUpTo step bound a rest
    | none => (a, ts)

/-- Extends a value by as many steps as can be read. -/
def extend (step : α → Reader α) (a : α) : Reader α := fun ts => some (extendUpTo step ts a ts)

/-- A value together with the text it was read from, without blanks. Comments in front of the first
token are not part of that text. -/
def spanned (p : Reader α) : Reader (String × α) := fun ts =>
  let ts := ts.dropWhile Token.isComment
  match p ts with
  | some (a, rest) => some ((Token.compact (ts.take (ts.length - rest.length)), a), rest)
  | none => none

/-- The text that the reader takes, without blanks. -/
def textOf (p : Reader α) : Reader String := do
  return (← spanned p).1

/-! ### Comments -/

/-- The comments that come next, without blanks. -/
def comments : Reader (List String) := fun ts =>
  some ((ts.takeWhile Token.isComment).map fun t => Text.compact t.text, ts.dropWhile Token.isComment)

/-- The comment that comes next, if one does; nothing is taken. -/
def comment? : Reader (Option String) := fun ts =>
  match ts with
  | t :: _ => some (if t.isComment then some (Text.compact t.text) else none, ts)
  | [] => some (none, ts)

/-! ### Braces -/

/-- What follows the brace that closes, when `depth` braces are open besides it. -/
def afterBrace : Nat → List Token → Option (List Token)
  | _, [] => none
  | depth, t :: ts =>
    if t.isSign "\x7b" then afterBrace (depth + 1) ts
    else if t.isSign "\x7d" then
      match depth with
      | 0 => some ts
      | depth + 1 => afterBrace depth ts
    else afterBrace depth ts

/-- What follows the first opening brace outside of parentheses, of which `depth` are open. -/
def toBrace : Nat → List Token → Option (List Token)
  | _, [] => none
  | depth, t :: ts =>
    if t.isSign "(" then toBrace (depth + 1) ts
    else if t.isSign ")" then toBrace (depth - 1) ts
    else if t.isSign "\x7b" && depth == 0 then some ts
    else toBrace depth ts

/-- Passes over everything up to a block in braces, and over the block. -/
def skipBlock : Reader Unit := fun ts => do
  let ts ← toBrace 0 ts
  let ts ← afterBrace 0 ts
  return ((), ts)

/-- Readers between braces. -/
def braced (p : Reader α) : Reader α := do
  sign "\x7b"
  let a ← p
  sign "\x7d"
  return a

/-- Readers between parentheses. -/
def parens (p : Reader α) : Reader α := do
  sign "("
  let a ← p
  sign ")"
  return a

end Reader

end Variability.Java
