import Variability.Text.Name

/-!
# Styled texts

Texts in the colours of a terminal. A style is switched on before a text and everything is switched
off after it; where the text itself switches everything off, the style is switched on again. Without
colours a text stays as it is.
-/

namespace Variability

/-- A style, by the numbers that switch it on. -/
structure Style where
  codes : String
  deriving DecidableEq, Repr, Inhabited

namespace Style

def bold : Style := ⟨"1"⟩
def dimmed : Style := ⟨"2"⟩
def red : Style := ⟨"31"⟩
def green : Style := ⟨"32"⟩
def yellow : Style := ⟨"33"⟩
def boldGreen : Style := ⟨"1;32"⟩
def boldCyan : Style := ⟨"1;36"⟩

/-- The sequence that switches a style on. -/
def on (s : Style) : String := "\x1b[" ++ s.codes ++ "m"

/-- The sequence that switches everything off. -/
def off : String := "\x1b[0m"

/-- Characters with more of them put in behind each occurrence of a sequence. -/
def putBehind (sequence extra : List Char) : Nat → List Char → List Char
  | 0, cs => cs
  | _, [] => []
  | n + 1, c :: cs =>
    if sequence.isPrefixOf (c :: cs) then
      sequence ++ extra ++ putBehind sequence extra n ((c :: cs).drop sequence.length)
    else c :: putBehind sequence extra n cs

/-- A text in a style, if there are colours. -/
def paint (s : Style) (colours : Bool) (text : String) : String :=
  if colours then
    s.on ++ String.ofList (putBehind off.toList s.on.toList text.length text.toList) ++ off
  else text

end Style

end Variability
