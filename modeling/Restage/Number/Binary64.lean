import Restage.Text.Basic

/-!
# Binary floating point numbers of 64 bits

Confidences, temperatures and durations are numbers of the common 64-bit binary format.  Every
finite number of that format is a whole multiple of `2 ^ -1074`, so a finite number is kept as a
sign and that multiple: comparing two of them compares natural numbers, and rounding a quotient or
printing a fixed number of places is exact arithmetic on natural numbers.

`ofRatio` rounds a quotient to the nearest number of the format, a tie to the even neighbour.
-/

namespace Restage

/-- The quotient `n / d` rounded to the nearest whole number, a tie to the even one. -/
def roundHalfEven (n d : Nat) : Nat :=
  let q := n / d
  let r := n % d
  if 2 * r < d then q
  else if d < 2 * r then q + 1
  else q + q % 2

/-- A number of the 64-bit binary format. -/
inductive Binary64 where
  /-- The number of the given sign that is `units` times `2 ^ -1074`. -/
  | finite (negative : Bool) (units : Nat)
  | infinite (negative : Bool)
  | nan
  deriving DecidableEq, Repr

namespace Binary64

def one : Nat := Nat.pow 2 1074

/-- The first multiple of a unit beyond every finite number. -/
def limit : Nat := Nat.pow 2 2098

/-- The distance between neighbouring numbers of the format around a multiple of a unit. -/
def spacing (units : Nat) : Nat := Nat.pow 2 (units.log2 - 52)

/-- The quotient `n / d` rounded to the nearest number of the format. -/
def ofRatio (negative : Bool) (n d : Nat) : Binary64 :=
  let gap := spacing (one * n / d)
  let units := roundHalfEven (one * n) (d * gap) * gap
  if units < limit then .finite negative units else .infinite negative

/-- The number `digits * 10 ^ exponent` rounded to the nearest number of the format.  A number with
more than four hundred places before or after the point is out of range at once. -/
def ofDecimal (negative : Bool) (digits : Nat) (exponent : Int) : Binary64 :=
  let places := (Text.ofNat digits).length + exponent
  if digits = 0 ∨ places < -400 then .finite negative 0
  else if 400 < places then .infinite negative
  else if exponent < 0 then ofRatio negative digits (Nat.pow 10 exponent.natAbs)
  else ofRatio negative (digits * Nat.pow 10 exponent.natAbs) 1

/-- A whole number, rounded to the nearest number of the format. -/
def ofInt (n : Int) : Binary64 := ofRatio (n < 0) n.natAbs 1

def zero : Binary64 := .finite false 0

/-- The whole number that a number of the format is, if it is one. -/
def toInt? : Binary64 → Option Int
  | .finite negative units =>
    if units % one = 0 then
      let n : Int := (units / one : Nat)
      some (if negative then -n else n)
    else none
  | _ => none

/-- Whether the number lies between zero and one, both included. -/
def isFraction : Binary64 → Bool
  | .finite negative units => if negative then units = 0 else units ≤ one
  | _ => false

/-- The number with the given places after the point, a tie to the even last digit. -/
def fixed (places : Nat) (x : Binary64) : Text :=
  let sign (negative : Bool) : Text := if negative then "-" else ""
  match x with
  | .finite negative units =>
    let scale := Nat.pow 10 places
    let scaled := roundHalfEven (units * scale) one
    let fraction := Text.ofNat (scaled % scale)
    sign negative ++ Text.ofNat (scaled / scale) ++ "."
      ++ List.replicate (places - fraction.length) '0' ++ fraction
  | .infinite negative => sign negative ++ "inf"
  | .nan => "nan"

end Binary64

end Restage
