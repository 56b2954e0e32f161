/-!
# Durations

How long something took, written as hours, minutes, seconds and milliseconds.
-/

namespace Variability.Duration

/-- A number with zeros in front, up to a width. -/
def padded (width n : Nat) : String :=
  let digits := Nat.toDigits 10 n
  String.ofList (List.replicate (width - digits.length) '0' ++ digits)

/-- A duration in milliseconds as `HH:MM:SS.mmm`. Hours take as many digits as they need. -/
def text (millis : Nat) : String :=
  padded 2 (millis / 3600000) ++ ":" ++ padded 2 (millis / 60000 % 60) ++ ":" ++
    padded 2 (millis / 1000 % 60) ++ "." ++ padded 3 (millis % 1000)

end Variability.Duration
