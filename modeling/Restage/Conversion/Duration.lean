import Restage.Conversion.Fault
import Restage.Number.Shortest
import Restage.Text.Word

/-!
# Durations

Waits are given in seconds or in milliseconds, and only the size tells which: a literal above one
thousand is taken for milliseconds and divided by one thousand.  The quotient is a number of the
64-bit format, written as a whole number if it is one and by its shortest decimal otherwise.  What
is no literal passes through unchanged.
-/

namespace Restage.Conversion

open Text

/-- The digits of a duration literal, which may end with `l` or `L`. -/
def durationDigits? (t : Text) : Option Text :=
  let rest := t.dropWhile isDecimal
  let digits := t.takeWhile isDecimal
  if digits.isEmpty then none
  else if rest = [] ∨ rest = ['l'] ∨ rest = ['L'] then some digits
  else none

def seconds (milliseconds : Nat) : Except Fault Text :=
  match Binary64.ofRatio false milliseconds 1000 with
  | .finite _ units =>
    .ok (if units % Binary64.one = 0 then ofNat (units / Binary64.one)
      else (Binary64.shortest units).positional)
  | _ => .error .durationTooLarge

def maxDurationDigits : Nat := 4300

/-- The duration that a text writes, as it stands in a call. -/
def duration (t : Text) : Except Fault Text :=
  let t := trim t
  match durationDigits? t with
  | none => .ok t
  | some digits =>
    if maxDurationDigits < digits.length then .error (.tooManyDigits digits.length)
    else
      let n := natOfDigits digits
      if n ≤ 1000 then .ok (ofNat n) else seconds n

end Restage.Conversion
