import Variability.Java.Grammar.Basic

/-!
# Types, annotations, modifiers and parameters

The parts of declarations: written types with type arguments and array brackets, annotations with
their values, lists of modifiers, and the parameters of methods and lambdas.
-/

namespace Variability.Java.Grammar

open Reader

/-! ### Annotations -/

/-- A name of one segment or more. -/
def qualifiedName : Reader Unit := do
  let _ ← name
  let _ ← many (sign "." *> name)

/-- A value in an annotation: a list, an annotation, a named value or an expression. -/
def elementValue (r : Nested) (annotated : Reader Found) : Reader Found :=
  braced (do
    let vs ← sepBy r.elementValue (sign ",")
    let _ ← opt (sign ",")
    return Found.concat vs) <|>
  annotated <|>
  (name *> sign "=" *> r.elementValue) <|>
  (do return (← r.expression).found)

/-- An annotation. -/
def annotationUse (r : Nested) : Reader Found := do
  sign "@"
  qualifiedName
  let vs ← opt (parens (sepBy r.elementValue (sign ",")))
  return Found.concat (vs.getD [])

/-- Any number of annotations. -/
def annotations (r : Nested) : Reader Found := do
  return Found.concat (← many (annotationUse r))

/-! ### Types -/

/-- A type argument with a question mark. -/
def wildcard (r : Nested) : Reader Found := do
  let as ← annotations r
  sign "?"
  let bound ← opt ((word "extends" <|> word "super") *> r.type)
  return as ++ .ofOption bound

/-- Type arguments in angle brackets, possibly none between them. -/
def typeArguments (r : Nested) : Reader Found := do
  sign "<"
  let ts ← sepBy (wildcard r <|> r.type) (sign ",")
  sign ">"
  return Found.concat ts

/-- A segment of a class type: a name and its type arguments. -/
def typeSegment (r : Nested) : Reader Found := do
  let _ ← name
  return .ofOption (← opt (typeArguments r))

/-- A type that is no array and has no annotations in front. -/
def simpleType (r : Nested) : Reader Found :=
  (do
    let _ ← want fun t => t.kind == .word && Token.primitiveTypes.contains t.text
    return {}) <|>
  (do
    let first ← typeSegment r
    let rest ← many (do
      sign "."
      let as ← annotations r
      return as ++ (← typeSegment r))
    return first ++ Found.concat rest)

/-- A pair of array brackets. -/
def brackets (r : Nested) : Reader Found := do
  let as ← annotations r
  sign "["
  sign "]"
  return as

/-- One pair of array brackets or more. -/
def dimensions1 (r : Nested) : Reader Found := do
  let first ← brackets r
  return first ++ Found.concat (← many (brackets r))

/-- Any number of pairs of array brackets. -/
def dimensions (r : Nested) : Reader Found := do
  return Found.concat (← many (brackets r))

/-- A type without annotations in front. -/
def bareType (r : Nested) : Reader Found := do
  let t ← simpleType r
  return t ++ (← dimensions r)

/-- A type. -/
def type (r : Nested) : Reader Found := do
  let as ← annotations r
  return as ++ (← bareType r)

/-- Type parameters in angle brackets. -/
def typeParameters (r : Nested) : Reader Unit := do
  sign "<"
  let _ ← sepBy1 (do
    let _ ← annotations r
    let _ ← name
    let _ ← opt (word "extends" *> sepBy1 r.type (sign "&"))) (sign ",")
  sign ">"

/-- The texts of a list of types. A comment between the first type and the last is listed with
them. -/
def typeList (r : Nested) : Reader (List String) := do
  let first ← textOf r.type
  let rest ← many (do
    let before ← comments
    sign ","
    let after ← comments
    let t ← textOf r.type
    return before ++ after ++ [t])
  return first :: rest.flatten

/-! ### Modifiers -/

/-- The modifiers and annotations in front of a declaration. -/
structure ModifierList where
  modifiers : Modifiers := {}
  found : Found := {}
  /-- Whether there are any. -/
  present : Bool := false

/-- The words that modify a declaration. -/
def modifierWords : List String :=
  ["public", "protected", "private", "abstract", "static", "final", "strictfp", "default",
    "synchronized", "native", "transient", "volatile"]

/-- A modifier of more than one word, or one that is a name elsewhere: `sealed` and `non-sealed`. -/
def sealing : Reader Unit :=
  (word "non" *> sign "-" *> word "sealed") <|>
  (word "sealed" *> expect (want fun t => t.kind == .word && Token.reserved.contains t.text))

/-- One more modifier or annotation. -/
def oneModifier (r : Nested) (l : ModifierList) : Reader ModifierList :=
  (do
    let t ← want fun t => t.kind == .word && modifierWords.contains t.text
    return { l with modifiers := l.modifiers.mark t.text, present := true }) <|>
  (sealing *> pure { l with present := true }) <|>
  (do
    let a ← annotationUse r
    return { l with found := l.found ++ a, present := true })

/-- Any number of modifiers and annotations. -/
def modifiers (r : Nested) : Reader ModifierList := extend (oneModifier r) {}

/-! ### Parameters -/

/-- What follows the type of a parameter. -/
inductive ParameterEnd where
  /-- The parameter takes any number of values. -/
  | spread (name : String)
  /-- The parameter stands for the object that the method is called on. -/
  | receiver
  /-- A name and the brackets after it. -/
  | plain (name brackets : String)

/-- What follows the type of a parameter. -/
def parameterEnd (r : Nested) : Reader ParameterEnd :=
  (do
    sign "..."
    let _ ← annotations r
    let n ← name
    let _ ← dimensions r
    return .spread n) <|>
  (many (name *> sign ".") *> word "this" *> pure .receiver) <|>
  (do
    let n ← name
    return .plain n (← textOf (dimensions r)))

/-- A parameter: its variable, except for a receiver, and what its annotations contain. In front of
the type of a parameter for any number of values a comment after the modifiers is taken for the
type. -/
def parameter (r : Nested) : Reader (Option Variable × Found) := do
  let ms ← modifiers r
  let c ← comment?
  let (t, f) ← spanned (bareType r)
  let found := ms.found ++ f
  match ← parameterEnd r with
  | .spread n =>
    let t := if ms.present then c.getD t else t
    return (some ⟨t ++ "[]", n⟩, found)
  | .receiver => return (none, found)
  | .plain n b => return (some ⟨t ++ b, n⟩, found)

/-- Parameters in parentheses. -/
def parameters (r : Nested) : Reader (List Variable × Found) := do
  let ps ← parens (sepBy (parameter r) (sign ","))
  return (ps.filterMap (·.1), Found.concat (ps.map (·.2)))

/-! ### Variables -/

/-- A variable with its value: its name and what the value contains. -/
def declarator (r : Nested) : Reader (String × Found) := do
  let n ← name
  let d ← dimensions r
  let v ← opt (sign "=" *> r.initializer)
  return (n, d ++ .ofOption v)

/-- The declaration of variables of one type, modifiers apart. -/
structure VariableList where
  type : String
  names : List String
  found : Found

/-- The declaration of variables of one type, up to the semicolon. -/
def variableList (r : Nested) : Reader VariableList := do
  let (t, f) ← spanned (bareType r)
  let ds ← sepBy1 (declarator r) (sign ",")
  sign ";"
  return ⟨t, ds.map (·.1), f ++ Found.concat (ds.map (·.2))⟩

/-- An array of values in braces. -/
def arrayInitializer (r : Nested) : Reader Found :=
  braced do
    let vs ← sepBy r.initializer (sign ",")
    let _ ← opt (sign ",")
    return Found.concat vs

/-- The value of a variable or an array element. -/
def initializer (r : Nested) : Reader Found :=
  arrayInitializer r <|> (do return (← r.expression).found)

end Variability.Java.Grammar
