import Restage.Json.Value
import Restage.Text.Case
import Restage.Text.Scan

/-!
# Typed values from JSON values

A field of a known type accepts more than one kind of JSON value: a number may be given as a string,
a truth value as a number or as a word, a whole number as one with a zero fraction.  A text accepts
texts only.
-/

namespace Restage.Json

open Text

/-! ## Numerals -/

/-- The text without underscores.  None may stand at either end or next to another one. -/
def dropUnderscores? (t : Text) : Option Text :=
  if startsWith "_" t || endsWith "_" t || occursIn "__" t then none
  else some (t.filter (· ≠ '_'))

/-- Reads an optional sign: whether it is a minus. -/
def sign : Text → Bool × Text
  | '-' :: r => (true, r)
  | '+' :: r => (false, r)
  | r => (false, r)

/-- The text without a point and the zeros after it at its end. -/
def dropZeroFraction (t : Text) : Text :=
  match cutFirst? '.' t with
  | some (whole, zeros) => if !zeros.isEmpty && zeros.all (· == '0') then whole else t
  | none => t

/-- The whole number that a numeral spells. -/
def wholeNumeral? (t : Text) : Option Int := do
  let t ← dropUnderscores? (trim t)
  let (negative, digits) := sign (dropZeroFraction t)
  if digits.isEmpty || !digits.all Char.isDigit || 4300 < digits.length then none
  else
    let n : Int := natOfDigits digits
    some (if negative then -n else n)

/-- Reads the exponent of a numeral, or nothing. -/
def exponentPart? : Text → Option Int
  | [] => some 0
  | e :: r =>
    if e = 'e' ∨ e = 'E' then
      let (negative, digits) := sign r
      if digits.isEmpty || !digits.all Char.isDigit then none
      else
        let n : Int := natOfDigits digits
        some (if negative then -n else n)
    else none

/-- The number that an unsigned numeral spells. -/
def unsignedNumeral? (negative : Bool) (t : Text) : Option Binary64 :=
  let word := lower t
  if word = "inf".toList ∨ word = "infinity".toList then some (.infinite negative)
  else if word = "nan".toList then some .nan
  else
    let whole := t.takeWhile Char.isDigit
    let rest := t.dropWhile Char.isDigit
    let (places, rest) := match rest with
      | '.' :: r => (r.takeWhile Char.isDigit, r.dropWhile Char.isDigit)
      | r => ([], r)
    if whole.isEmpty && places.isEmpty then none
    else (exponentPart? rest).map fun e =>
      .ofDecimal negative (natOfDigits (whole ++ places)) (e - places.length)

/-- The number that a numeral spells. -/
def numeral? (t : Text) : Option Binary64 := do
  let t ← dropUnderscores? (trim t)
  let (negative, r) := sign t
  unsignedNumeral? negative r

/-! ## Typed values -/

def trueWords : List Text := ["1", "on", "t", "true", "y", "yes"]

def falseWords : List Text := ["0", "off", "f", "false", "n", "no"]

namespace Value

/-- A truth value: given as such, as zero or one, or as a word. -/
def asBool? : Value → Option Bool
  | .bool b => some b
  | .int n => if n = 0 then some false else if n = 1 then some true else none
  | .real x =>
    match x.toInt? with
    | some n => if n = 0 then some false else if n = 1 then some true else none
    | none => none
  | .string t =>
    if trueWords.contains (lower t) then some true
    else if falseWords.contains (lower t) then some false
    else none
  | _ => none

/-- A whole number: given as such, as a truth value, with a zero fraction, or as a numeral.  A
number of the binary format has to lie between `-2 ^ 63` and `2 ^ 63`. -/
def asInt? : Value → Option Int
  | .int n => some n
  | .bool b => some (if b then 1 else 0)
  | .real x => x.toInt?.filter fun n => -Int.pow 2 63 < n && n < Int.pow 2 63
  | .string t => wholeNumeral? t
  | _ => none

/-- A number: given as such, as a truth value, or as a numeral. -/
def asReal? : Value → Option Binary64
  | .real x => some x
  | .int n =>
    match Binary64.ofInt n with
    | .finite negative units => some (.finite negative units)
    | _ => none
  | .bool b => some (.ofInt (if b then 1 else 0))
  | .string t => numeral? t
  | _ => none

end Value

end Restage.Json
