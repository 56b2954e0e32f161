import Variability.Text.Name
import Variability.Text.Blank

/-!
# Written types

A type is written as a name, generic arguments in angle brackets, and array brackets; three dots
after it count as one more pair of array brackets. `WrittenType.split` takes such a text apart.
The brackets of arrays inside the generic arguments belong to the arguments.
-/

namespace Variability.Java

/-- The parts of a written type. -/
structure WrittenType where
  base : String
  arguments : String
  /-- The number of array dimensions. -/
  dimensions : Nat
  deriving DecidableEq, Repr, Inhabited

namespace WrittenType

/-- Array brackets for a number of dimensions. -/
def brackets (n : Nat) : String := Text.replicate n "[]"

/-- Cuts after the angle bracket that closes the `depth` open ones; everything is taken when
there is none. -/
def takeArguments : Nat → List Char → List Char × List Char
  | _, [] => ([], [])
  | depth, c :: cs =>
    if c = '>' ∧ depth ≤ 1 then ([c], cs)
    else
      let depth := if c = '<' then depth + 1 else if c = '>' then depth - 1 else depth
      let (taken, rest) := takeArguments depth cs
      (c :: taken, rest)

/-- The generic arguments at the start of a text, and what follows them. -/
def splitArguments : List Char → List Char × List Char
  | '<' :: cs =>
    let (taken, rest) := takeArguments 1 cs
    ('<' :: taken, rest)
  | cs => ([], cs)

/-- Removes three final dots, and says whether they were there. -/
def dropDots (cs : List Char) : List Char × Bool :=
  match cs.reverse with
  | '.' :: '.' :: '.' :: rest => (rest.reverse, true)
  | _ => (cs, false)

/-- Whether a character ends the name of a type. -/
def endsBase (c : Char) : Bool := c == '<' || c == '['

/-- Takes a written type apart. -/
def splitChars (cs : List Char) : List Char × List Char × Nat :=
  let (body, dots) := dropDots (Text.trimChars cs)
  let base := body.takeWhile (!endsBase ·)
  let (arguments, rest) := splitArguments (body.dropWhile (!endsBase ·))
  (base, arguments, rest.count '[' + if dots then 1 else 0)

/-- Takes a written type apart. -/
def split (text : String) : WrittenType :=
  let (base, arguments, dimensions) := splitChars text.toList
  { base := String.ofList base, arguments := String.ofList arguments, dimensions }

end WrittenType

end Variability.Java
