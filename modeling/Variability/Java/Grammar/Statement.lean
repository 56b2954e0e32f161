import Variability.Java.Grammar.Expression

/-!
# Statements

A statement yields what it contains. Where a statement could be a declaration or an expression it is
taken for a declaration if a type is followed by a name. Types declared inside of a method are
passed over with all that is in them.
-/

namespace Variability.Java.Grammar

open Reader

/-- Statements in braces. -/
def block (r : Nested) : Reader Found := do
  return Found.concat (← braced (many r.statement))

/-- The beginning of a type declaration after its modifiers, up to its name. A record is told by what
follows the name, since the word is no keyword. -/
def typeStart : Reader Unit :=
  ((word "class" <|> word "interface" <|> word "enum") *> name *> pure ()) <|>
  (sign "@" *> word "interface" *> name *> pure ()) <|>
  (word "record" *> name *> expect (sign "(" <|> sign "<"))

/-- A type declared inside of a method. -/
def localType (r : Nested) : Reader Found := do
  let _ ← modifiers r
  typeStart
  skipBlock
  return {}

/-- The declaration of local variables. -/
def localVariables (r : Nested) : Reader Found := do
  let ms ← modifiers r
  let vs ← variableList r
  return ⟨[], vs.names.map (⟨vs.type, ·⟩)⟩ ++ ms.found ++ vs.found

/-- A variable that takes its values from what follows the given sign. -/
def variableFrom (r : Nested) (s : String) : Reader Found := do
  let ms ← modifiers r
  let (t, tf) ← spanned (bareType r)
  let n ← name
  let d ← dimensions r
  sign s
  let e ← r.expression
  return ⟨[], [⟨t, n⟩]⟩ ++ ms.found ++ tf ++ d ++ e.found

/-- What an expression contains. -/
def contents (r : Nested) : Reader Found := do return (← r.expression).found

/-- The head of a loop that counts: start, condition and step. -/
def loopHead (r : Nested) : Reader Found := do
  let start ← localVariables r <|>
    (do
      let es ← sepBy (contents r) (sign ",")
      sign ";"
      return Found.concat es)
  let condition ← opt (contents r)
  sign ";"
  let step ← sepBy (contents r) (sign ",")
  return start ++ .ofOption condition ++ Found.concat step

/-- A `for` statement. -/
def forStatement (r : Nested) : Reader Found := do
  word "for"
  let head ← parens (variableFrom r ":") <|> parens (loopHead r)
  return head ++ (← r.statement)

/-- An `if` statement. -/
def ifStatement (r : Nested) : Reader Found := do
  word "if"
  let c ← parenthesized r
  let yes ← r.statement
  let no ← opt (word "else" *> r.statement)
  return c.found ++ yes ++ .ofOption no

/-- A `while` statement. -/
def whileStatement (r : Nested) : Reader Found := do
  word "while"
  let c ← parenthesized r
  return c.found ++ (← r.statement)

/-- A `do` statement. -/
def doStatement (r : Nested) : Reader Found := do
  word "do"
  let body ← r.statement
  word "while"
  let c ← parenthesized r
  sign ";"
  return body ++ c.found

/-- A `catch` clause. -/
def catchClause (r : Nested) : Reader Found := do
  word "catch"
  let head ← parens do
    let ms ← modifiers r
    let ts ← sepBy1 (bareType r) (sign "|")
    let _ ← name
    let d ← dimensions r
    return ms.found ++ Found.concat ts ++ d
  return head ++ (← block r)

/-- The resources of a `try` statement. -/
def resources (r : Nested) : Reader Found :=
  parens do
    let rs ← sepBy1 (variableFrom r "=" <|> contents r) (sign ";")
    let _ ← opt (sign ";")
    return Found.concat rs

/-- A `try` statement. -/
def tryStatement (r : Nested) : Reader Found := do
  word "try"
  let rs ← opt (resources r)
  let body ← block r
  let catches ← many (catchClause r)
  let last ← opt (word "finally" *> block r)
  return .ofOption rs ++ body ++ Found.concat catches ++ .ofOption last

/-- A `return` statement. A comment in front of the value hides its form. -/
def returnStatement (r : Nested) : Reader Found := do
  word "return"
  let c ← comment?
  let e ← opt r.expression
  sign ";"
  let form := if c.isSome then some .other else e.map (·.form)
  return .item (.returning form) ++ .ofOption (e.map (·.found))

/-- A statement that begins with a word and has expressions up to the semicolon, with the given sign
between them. -/
def simpleStatement (r : Nested) (w : String) (separator : String) : Reader Found := do
  word w
  let es ← sepBy (contents r) (sign separator)
  sign ";"
  return Found.concat es

/-- A statement that yields a value of a switch. -/
def yieldStatement (r : Nested) : Reader Found := do
  word "yield"
  let e ← contents r
  sign ";"
  return e

/-- A `synchronized` statement. -/
def synchronizedStatement (r : Nested) : Reader Found := do
  word "synchronized"
  let e ← parenthesized r
  return e.found ++ (← block r)

/-- An expression as a statement. -/
def expressionStatement (r : Nested) : Reader Found := do
  let e ← contents r
  sign ";"
  return e

/-- A statement. -/
def statement (r : Nested) : Reader Found :=
  block r <|>
  (sign ";" *> pure .nothing) <|>
  ifStatement r <|> whileStatement r <|> doStatement r <|> forStatement r <|> tryStatement r <|>
  returnStatement r <|>
  simpleStatement r "throw" "," <|> simpleStatement r "assert" ":" <|>
  simpleStatement r "break" "," <|> simpleStatement r "continue" "," <|>
  synchronizedStatement r <|>
  switch r (operations r (r.operand false)) <|>
  yieldStatement r <|>
  localType r <|>
  localVariables r <|>
  (name *> sign ":" *> r.statement) <|>
  expressionStatement r

end Variability.Java.Grammar
