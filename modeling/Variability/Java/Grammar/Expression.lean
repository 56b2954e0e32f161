import Variability.Java.Grammar.Type

/-!
# Expressions

An expression is read as operands with operators between them. Which operator binds tighter makes
no difference to what an expression contains, and an expression with an operator has no form of its
own, so precedence is not looked at. An operand is a primary expression with its suffixes, or begins
with a unary operator, a cast or the parameters of a lambda.

Two choices are made by trying: an opening parenthesis begins a lambda if an arrow follows the
parameters, otherwise a cast if a type in parentheses is followed by an operand, otherwise a
parenthesized expression. So `(a) + b` is a cast of `+ b`.
-/

namespace Variability.Java.Grammar

open Reader

/-! ### Literals and names -/

/-- The type of a literal, by its token. -/
def literalType? (t : Token) : Option String :=
  let endsIn (cs : List Char) : Bool := (t.text.toList.getLast?.map cs.contains).getD false
  match t.kind with
  | .integer => some (if endsIn ['l', 'L'] then "long" else "int")
  | .floating => some (if endsIn ['f', 'F'] then "float" else "double")
  | .character => some "char"
  | .text => some "java.lang.String"
  | .word => if t.text == "true" || t.text == "false" then some "boolean" else none
  | _ => none

/-- A literal. -/
def literal : Reader Operand := do
  let t ← next
  if t.isWord "null" then return .of .null {}
  match literalType? t with
  | some type => return .of (.literal type) {}
  | none => failure

/-- The arguments of a call. -/
def arguments (r : Nested) : Reader Found := do
  let es ← parens (sepBy r.expression (sign ","))
  return Found.concat (es.map (·.found))

/-- A class literal or a method reference that begins with a type. -/
def typeReference (r : Nested) : Reader Operand := do
  let t ← type r
  (sign "." *> word "class") <|>
    (do
      sign "::"
      let _ ← opt (typeArguments r)
      let _ ← want fun t => t.isWord "new" || t.isName)
  return .other t

/-- A name, or the call of a method by its name alone. -/
def nameOrCall (r : Nested) : Reader Operand := do
  let n ← name
  match ← opt (arguments r) with
  | some args => return .of (.call .implicit n) (.item (.call .implicit n) ++ args)
  | none => return .of (.name n) {}

/-- The object itself, or the call of another constructor of its class. -/
def selfReference (r : Nested) : Reader Operand := do
  let _ ← opt (typeArguments r)
  word "this"
  match ← opt (arguments r) with
  | some args => return .other args
  | none => return ⟨.self, .self, {}⟩

/-- The object as one of its superclass, or the call of a constructor of the superclass. -/
def superReference (r : Nested) : Reader Operand := do
  let _ ← opt (typeArguments r)
  word "super"
  match ← opt (arguments r) with
  | some args => return .other args
  | none => return ⟨.other, .super, {}⟩

/-- An expression in parentheses has the form of what stands in them, unless a comment comes
first. -/
def parenthesized (r : Nested) : Reader Operand :=
  parens do
    let c ← comment?
    let e ← r.expression
    return .of (if c.isSome then .other else e.form) e.found

/-! ### Creations -/

/-- The creation of an object or an array. -/
structure Creation where
  form : Expr
  found : Found
  /-- Whether a class body is given. -/
  anonymous : Bool := false

/-- The number of opening brackets in a text. -/
def openBrackets (s : String) : Nat := s.toList.count '['

/-- A pair of brackets with a length between them. -/
def lengthBrackets (r : Nested) : Reader Found := do
  let as ← annotations r
  sign "["
  let e ← r.expression
  sign "]"
  return as ++ e.found

/-- The dimensions of a new array: their texts, and what they and the values contain. -/
def arrayShape (r : Nested) : Reader (List String × Found) :=
  (do
    let first ← spanned (lengthBrackets r)
    let more ← many (spanned (lengthBrackets r))
    let last ← opt (spanned (dimensions1 r))
    let ds := first :: more ++ last.toList
    return (ds.map (·.1), Found.concat (ds.map (·.2)))) <|>
  (do
    let (t, f) ← spanned (dimensions1 r)
    return ([t], f ++ (← arrayInitializer r)))

/-- The creation of an object or an array, from `new` on. Of an object with a class body only the
arguments are listed, and then the body. -/
def creation (r : Nested) : Reader Creation := do
  word "new"
  let before ← annotations r
  let targs ← opt (typeArguments r)
  let after ← annotations r
  let (t, tf) ← spanned (simpleType r)
  let front := before ++ .ofOption targs ++ after ++ tf
  (do
    let args ← arguments r
    match ← opt r.members with
    | some members =>
      let type := TypeSyntax.mk { isAnonymous := true } members
      return ⟨.creation t true, args ++ .item (.anonymous type), true⟩
    | none => return ⟨.creation t false, front ++ args, false⟩) <|>
  (do
    let (ds, f) ← arrayShape r
    let brackets := Text.replicate ((ds.map openBrackets).foldl (· + ·) 0) "[]"
    return ⟨.arrayCreation (t ++ brackets), front ++ f, false⟩)

/-! ### Patterns and switches -/

/-- A component of a record pattern. -/
def patternComponent (r : Nested) : Reader Found :=
  r.recordPattern <|>
  (do
    let ms ← modifiers r
    let t ← bareType r
    let _ ← name
    return ms.found ++ t) <|>
  (word "_" *> pure .nothing)

/-- A pattern that takes a record apart. -/
def recordPattern (r : Nested) : Reader Found := do
  let t ← simpleType r
  let cs ← parens (sepBy (patternComponent r) (sign ","))
  let _ ← opt name
  return t ++ Found.concat cs

/-- A pattern in a label of a switch. -/
def labelPattern (r : Nested) : Reader Found := do
  let p ← recordPattern r <|>
    (do
      let ms ← modifiers r
      let t ← bareType r
      let _ ← name
      return ms.found ++ t)
  expect (sign "->" <|> sign ":" <|> sign "," <|> word "when")
  return p

/-- A label of a switch, up to the arrow or colon. -/
def switchLabel (r : Nested) (expression : Reader Operand) : Reader Found :=
  (word "default" *> pure .nothing) <|>
  (do
    word "case"
    let found ← (do return Found.concat (← sepBy1 (labelPattern r) (sign ","))) <|>
      (do return Found.concat (← sepBy1
        ((word "default" *> pure .nothing) <|> (do return (← expression).found)) (sign ",")))
    let guard ← opt (word "when" *> expression)
    return found ++ .ofOption (guard.map (·.found)))

/-- A switch. The expressions in its labels are read by the second reader, which does not take an
arrow. -/
def switch (r : Nested) (expression : Reader Operand) : Reader Found := do
  word "switch"
  let subject ← parenthesized r
  let parts ← braced (many (
    (do
      let l ← switchLabel r expression
      let body ← (sign "->" *> r.statement) <|> (sign ":" *> pure .nothing)
      return l ++ body) <|>
    r.statement))
  return subject.found ++ Found.concat parts

/-! ### Operands -/

/-- The body of a lambda. -/
def lambdaBody (r : Nested) : Reader Found := do
  if ← ahead (sign "\x7b") then r.statement else return (← r.expression).found

/-- A lambda. -/
def lambda (r : Nested) : Reader Operand := do
  let ps ← (name *> sign "->" *> pure .nothing) <|>
    (parens (sepBy name (sign ",")) *> sign "->" *> pure .nothing) <|>
    (do
      let (_, f) ← parameters r
      sign "->"
      return f)
  return .other (ps ++ (← lambdaBody r))

/-- A sign in front of an operand. -/
def unarySign : Reader Unit :=
  sign "+" <|> sign "-" <|> sign "!" <|> sign "~" <|> sign "++" <|> sign "--"

/-- A cast. With several types the first one counts, and the value begins with no sign. -/
def cast (r : Nested) (lambdas : Bool) : Reader Operand := do
  sign "("
  let (t, tf) ← spanned (type r)
  let more ← many (sign "&" *> type r)
  sign ")"
  if !more.isEmpty && (← ahead unarySign) then failure
  let v ← r.operand lambdas
  return .of (.cast t) (tf ++ Found.concat more ++ v.found)

/-- An expression that suffixes can follow. -/
def primary (r : Nested) : Reader Operand :=
  literal <|> typeReference r <|> nameOrCall r <|> selfReference r <|> superReference r <|>
  (do
    let c ← creation r
    return .of c.form c.found) <|>
  parenthesized r

/-- A member of an object: a field, or the call of a method. -/
def memberSuffix (r : Nested) (o : Operand) : Reader Operand := do
  let targs ← opt (typeArguments r)
  let n ← name
  match ← opt (arguments r) with
  | some args =>
    let found := .item (.call o.receiver n) ++ o.found ++ .ofOption targs ++ args
    return .of (.call o.receiver n) found
  | none => return .of (.field o.form n) o.found

/-- What follows an expression and a point. A creation with a class body hides what comes before
it. Naming a superclass does not change what a method is called on. -/
def pointSuffix (r : Nested) (o : Operand) : Reader Operand :=
  memberSuffix r o <|>
  (word "this" *> pure (.of (.field o.form "this") o.found)) <|>
  (do
    let _ ← opt (typeArguments r)
    word "super"
    match ← opt (arguments r) with
    | some args => return .other (o.found ++ args)
    | none => return o) <|>
  (do
    let c ← creation r
    return .of c.form (if c.anonymous then c.found else o.found ++ c.found)) <|>
  (want (·.kind == .text) *> pure (.other o.found))

/-- What follows an expression and belongs to it. -/
def suffix (r : Nested) (o : Operand) : Reader Operand :=
  (sign "." *> pointSuffix r o) <|>
  (do
    sign "["
    let e ← r.expression
    sign "]"
    return .other (o.found ++ e.found)) <|>
  (do
    sign "::"
    let targs ← opt (typeArguments r)
    let _ ← want fun t => t.isWord "new" || t.isName
    return .other (o.found ++ .ofOption targs))

/-- A primary expression with its suffixes. -/
def suffixed (r : Nested) : Reader Operand := do
  let o ← extend (suffix r) (← primary r)
  match ← opt (sign "++" <|> sign "--") with
  | some _ => return .other o.found
  | none => return o

/-! ### Operators -/

/-- The signs that stand between two operands, except for those that begin with `>`. -/
def binarySigns : List String :=
  ["+", "-", "*", "/", "%", "&", "|", "^", "&&", "||", "==", "!=", "<", "<=", "<<", "=", "+=", "-=", "*=",
    "/=", "%=", "&=", "|=", "^=", "<<="]

/-- A sign that stands between two operands. -/
def binarySign : Reader Unit :=
  (do
    let _ ← want fun t => t.kind == .sign && binarySigns.contains t.text) <|>
  (do
    let _ ← want fun t => t.isSign ">" || t.isSign ">="
    let _ ← many (sign ">" <|> sign ">="))

/-- The test whether a value is of a type. -/
def typeTest (r : Nested) : Reader Found := do
  word "instanceof"
  let ms ← modifiers r
  let t ← recordPattern r <|>
    (do
      let t ← type r
      let _ ← opt name
      return t)
  return ms.found ++ t


/-- What follows an operand in an expression, up to the next operand. -/
def operation (r : Nested) (operand : Reader Operand) : Reader Found :=
  typeTest r <|>
  (do
    sign "?"
    let yes ← r.expression
    sign ":"
    let no ← operand
    return yes.found ++ no.found) <|>
  (do
    binarySign
    return (← operand).found)

/-- Operands with operators between them. -/
def operations (r : Nested) (operand : Reader Operand) : Reader Operand := do
  let first ← operand
  let rest ← many (operation r operand)
  if rest.isEmpty then return first
  return .other (first.found ++ Found.concat rest)

/-- An operand. -/
def operand (r : Nested) (lambdas : Bool) : Reader Operand :=
  (do
    unarySign
    return .other (← r.operand lambdas).found) <|>
  (if lambdas then lambda r else failure) <|>
  cast r lambdas <|>
  (do return .other (← switch r (operations r (r.operand false)))) <|>
  suffixed r

/-- An expression. -/
def expression (r : Nested) : Reader Operand := operations r (operand r true)

end Variability.Java.Grammar
