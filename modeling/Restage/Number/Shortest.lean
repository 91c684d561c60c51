import Restage.Number.Binary64

/-!
# The shortest decimal of a binary number

A number of the 64-bit format is shown by the fewest decimal digits that read back as that number;
of several such decimals, the one nearest to it.  For one digit, two digits, and so on, the two
decimals next to the number are tried; seventeen digits always suffice.
-/

namespace Restage

/-- The decimal `digits * 10 ^ exponent`. -/
structure Decimal where
  digits : Nat
  exponent : Int
  deriving DecidableEq, Repr

namespace Binary64

/-- The exponent of the first decimal digit of a positive multiple of a unit: the largest power of
ten that is not above it, by search from `2 ^ 1024 < 10 ^ 309` down. -/
def leadingExponent (units : Nat) : Nat → Int
  | 0 => -324
  | n + 1 =>
    let e : Int := (n : Int) - 324
    let reached :=
      if e < 0 then one ≤ units * Nat.pow 10 e.natAbs else one * Nat.pow 10 e.natAbs ≤ units
    if reached then e else leadingExponent units n

/-- The decimals with the given exponent next to a multiple of a unit: below or at it, and above. -/
def neighbours (units : Nat) (exponent : Int) : Nat × Nat :=
  let below :=
    if exponent < 0 then units * Nat.pow 10 exponent.natAbs / one
    else units / (one * Nat.pow 10 exponent.natAbs)
  (below, below + 1)

def readsBack (units : Nat) (d : Decimal) : Bool :=
  ofDecimal false d.digits d.exponent = .finite false units

/-- Whether the lower of two neighbouring decimals is nearer to the number, or as near and even. -/
def lowerIsNearer (units below : Nat) (exponent : Int) : Bool :=
  let n := if exponent < 0 then units * Nat.pow 10 exponent.natAbs else units
  let d := if exponent < 0 then one else one * Nat.pow 10 exponent.natAbs
  roundHalfEven n d = below

/-- A decimal of the given exponent that reads back as the number. -/
def decimalAt? (units : Nat) (exponent : Int) : Option Decimal :=
  let (below, above) := neighbours units exponent
  let low : Decimal := ⟨below, exponent⟩
  let high : Decimal := ⟨above, exponent⟩
  match readsBack units low, readsBack units high with
  | true, true => some (if lowerIsNearer units below exponent then low else high)
  | true, false => some low
  | false, true => some high
  | false, false => none

/-- The first decimal that reads back, from the given exponent down by as many steps as are left. -/
def firstDecimal? (units : Nat) (exponent : Int) : Nat → Option Decimal
  | 0 => none
  | n + 1 => (decimalAt? units exponent).or (firstDecimal? units (exponent - 1) n)

/-- The shortest decimal that reads back as a positive multiple of a unit. -/
def shortest (units : Nat) : Decimal :=
  (firstDecimal? units (leadingExponent units 634) 17).getD ⟨units, -1074⟩

end Binary64

/-- The decimal written with a point and without an exponent. -/
def Decimal.positional (d : Decimal) : Text :=
  if d.exponent < 0 then
    let scale := Nat.pow 10 d.exponent.natAbs
    let fraction := Text.ofNat (d.digits % scale)
    Text.ofNat (d.digits / scale) ++ "."
      ++ List.replicate (d.exponent.natAbs - fraction.length) '0' ++ fraction
  else Text.ofNat (d.digits * Nat.pow 10 d.exponent.natAbs)

end Restage
