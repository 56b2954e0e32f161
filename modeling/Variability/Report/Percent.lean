import Variability.Analysis

/-!
# Percentages

A share is computed in binary floating point and written with two decimal places. The digits are
those of the exact value of the binary number, and a tie goes to the even neighbour.
-/

namespace Variability

/-- The quotient of two numbers rounded to the nearest whole number, a tie to the even one. -/
def roundDiv (num den : Nat) : Nat :=
  let q := num / den
  let twice := 2 * (num % den)
  if twice < den then q
  else if twice = den then q + q % 2
  else q + 1

/-- The exact value of a binary number that is finite and not negative, times `scale`, rounded to
the nearest whole number. -/
def Binary.scaled (bits : UInt64) (scale : Nat) : Nat :=
  let exponent := (bits.toNat / Nat.pow 2 52) % Nat.pow 2 11
  let fraction := bits.toNat % Nat.pow 2 52
  let mantissa := if exponent = 0 then fraction else fraction + Nat.pow 2 52
  let power := max exponent 1
  if power ≥ 1075 then mantissa * Nat.pow 2 (power - 1075) * scale
  else roundDiv (mantissa * scale) (Nat.pow 2 (1075 - power))

/-- A number of hundredths, written with two decimal places. -/
def hundredths (n : Nat) : String :=
  let rest := n % 100
  toString (n / 100) ++ "." ++ (if rest < 10 then "0" else "") ++ toString rest

/-- A share of a whole, in percent. -/
def percent (part whole : Nat) : Float :=
  if whole = 0 then 0.0
  else part.toUInt64.toFloat * 100.0 / whole.toUInt64.toFloat

/-- A share of a whole, in percent, with two decimal places. -/
def percentText (part whole : Nat) : String :=
  hundredths (Binary.scaled (percent part whole).toBits 100)

namespace RunSummary

/-- The share of inheritance links that had to be corrected, in percent. -/
def correctedShare (s : RunSummary) : Float := percent s.correctedLinks s.inheritanceLinks

/-- The written form of the share of corrected links. -/
def correctedShareText (s : RunSummary) : String :=
  percentText s.correctedLinks s.inheritanceLinks

end RunSummary

end Variability
