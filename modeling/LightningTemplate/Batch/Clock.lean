import LightningTemplate.Text.Basic

/-! What the clock shows in the course of a batch, and how a time is written. -/
namespace LightningTemplate.Batch
open Text

/-- The clock at an attempt, in seconds: at its start, after the conversion, and where a
fault has stopped it. -/
structure Moments where
  start : Rat
  converted : Rat
  stopped : Rat

/-- The moments of the attempts of a batch, one after the other. -/
abbrev Clock := Nat → Moments

namespace Clock

def still : Clock := fun _ => ⟨0, 0, 0⟩

def later (clock : Clock) : Clock := fun n => clock (n + 1)

end Clock

/-- The whole number next to a quotient; of two, the even one. -/
def roundEven (dividend divisor : Nat) : Nat :=
  let q := dividend / divisor
  let twice := 2 * (dividend % divisor)
  if twice < divisor || twice = divisor && q % 2 = 0 then q else q + 1

def secondsText (seconds : Rat) : Text :=
  let tenths := roundEven (10 * seconds.num.natAbs) seconds.den
  (if seconds < 0 then ['-'] else []) ++ ofNat (tenths / 10) ++ '.' :: ofNat (tenths % 10) ++ ['s']

example : [0, 1/4, 3/4, 12/5, -1/25].map secondsText =
    ["0.0s", "0.2s", "0.8s", "2.4s", "-0.0s"].map String.toList := by
  decide +kernel

end LightningTemplate.Batch
