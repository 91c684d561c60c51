import Restage.Json.Value
import Restage.Text.Scan

/-!
# Reading JSON

The reader accepts the JSON grammar and, beyond it, the numbers `NaN`, `Infinity` and `-Infinity`. A
string may not hold control characters below the space.  A whole number of more than 4300 digits is
refused with an error of its own, since callers tell it apart from malformed text.

Strings are read in two steps: first the code units that characters and escapes stand for, then the
pairs of units beyond the basic plane are joined.
-/

namespace Restage.Json

open Text

/-- Why a text is no JSON document. -/
inductive ReadError where
  | malformed
  /-- A whole number has too many digits. -/
  | tooManyDigits (count : Nat)
  deriving DecidableEq, Repr

def maxDigits : Nat := 4300

/-! ## Strings -/

/-- The value of a hexadecimal digit. -/
def hexDigit? (c : Char) : Option Nat :=
  if '0' ≤ c ∧ c ≤ '9' then some (c.toNat - 48)
  else if 'a' ≤ c ∧ c ≤ 'f' then some (c.toNat - 87)
  else if 'A' ≤ c ∧ c ≤ 'F' then some (c.toNat - 55)
  else none

/-- The character that a one-letter escape stands for. -/
def escape? : Char → Option Char
  | '"' => some '"'
  | '\\' => some '\\'
  | '/' => some '/'
  | 'b' => some '\x08'
  | 'f' => some '\x0c'
  | 'n' => some '\n'
  | 'r' => some '\r'
  | 't' => some '\t'
  | _ => none

/-- Reads a string after its opening quote: the code units of its characters and escapes, and what
follows the closing quote. -/
def stringUnits? : Text → Option (List Nat × Text)
  | [] => none
  | '"' :: r => some ([], r)
  | '\\' :: 'u' :: a :: b :: c :: d :: r => do
    let a ← hexDigit? a
    let b ← hexDigit? b
    let c ← hexDigit? c
    let d ← hexDigit? d
    let (units, rest) ← stringUnits? r
    some ((4096 * a + 256 * b + 16 * c + d) :: units, rest)
  | '\\' :: e :: r => do
    let c ← escape? e
    let (units, rest) ← stringUnits? r
    some (c.toNat :: units, rest)
  | c :: r =>
    if c.toNat < 32 ∨ c = '\\' then none
    else (stringUnits? r).map fun (units, rest) => (c.toNat :: units, rest)

/-- Whether a code unit is the first half of a pair. -/
def isHighHalf (n : Nat) : Bool := 0xD800 ≤ n && n < 0xDC00

/-- Whether a code unit is the second half of a pair. -/
def isLowHalf (n : Nat) : Bool := 0xDC00 ≤ n && n < 0xE000

/-- The characters of code units.  A half without its partner becomes the replacement character. -/
def joinUnits : List Nat → Text
  | high :: low :: r =>
    if isHighHalf high && isLowHalf low then
      Char.ofNat (0x10000 + 0x400 * (high - 0xD800) + (low - 0xDC00)) :: joinUnits r
    else (if isHighHalf high || isLowHalf high then '�' else Char.ofNat high)
      :: joinUnits (low :: r)
  | [n] => [if isHighHalf n || isLowHalf n then '�' else Char.ofNat n]
  | [] => []

/-- Reads a string after its opening quote. -/
def stringBody? (t : Text) : Option (Text × Text) :=
  (stringUnits? t).map fun (units, rest) => (joinUnits units, rest)

/-! ## Numbers -/

/-- Reads a fraction: a point and at least one digit. -/
def fraction (t : Text) : Text × Text :=
  match t with
  | '.' :: r => (run? Char.isDigit r).getD ([], t)
  | _ => ([], t)

/-- Reads an exponent: the letter, a sign and at least one digit. -/
def exponent? (t : Text) : Option (Int × Text) :=
  match t with
  | e :: r =>
    if e = 'e' ∨ e = 'E' then
      match r with
      | '-' :: r => (run? Char.isDigit r).map fun (ds, rest) => (-(natOfDigits ds : Int), rest)
      | '+' :: r => (run? Char.isDigit r).map fun (ds, rest) => ((natOfDigits ds : Int), rest)
      | r => (run? Char.isDigit r).map fun (ds, rest) => ((natOfDigits ds : Int), rest)
    else none
  | [] => none

/-- Reads the digits of the whole part: zero alone, or digits that do not start with zero. -/
def wholePart? : Text → Option (Text × Text)
  | '0' :: r => some (['0'], r)
  | r => run? Char.isDigit r

/-- Reads a number without its sign. -/
def unsigned? (negative : Bool) (t : Text) : Except ReadError (Value × Text) :=
  match wholePart? t with
  | none => .error .malformed
  | some (whole, r) =>
    let (places, r) := fraction r
    match exponent? r with
    | some (e, rest) =>
      .ok (.real (.ofDecimal negative (natOfDigits (whole ++ places)) (e - places.length)), rest)
    | none =>
      if places.isEmpty then
        if maxDigits < whole.length then .error (.tooManyDigits whole.length)
        else
          let n : Int := natOfDigits whole
          .ok (.int (if negative then -n else n), r)
      else .ok (.real (.ofDecimal negative (natOfDigits (whole ++ places)) (-places.length)), r)

def number? : Text → Except ReadError (Value × Text)
  | '-' :: r => unsigned? true r
  | r => unsigned? false r

/-! ## Values -/

/-- Reads the blanks that may stand between tokens. -/
def gap (t : Text) : Text := t.dropWhile fun c => c == ' ' || c == '\t' || c == '\n' || c == '\r'

def constants : List (Text × Value) :=
  [("null", .null), ("true", .bool true), ("false", .bool false), ("NaN", .real .nan),
   ("Infinity", .real (.infinite false)), ("-Infinity", .real (.infinite true))]

/-- Reads a value that is one word. -/
def constant? (t : Text) : Option (Value × Text) :=
  constants.findSome? fun (word, v) => (literal? word t).map (v, ·)

mutual

/-- Reads a value.  The count bounds the number of tokens. -/
def value? : Nat → Text → Except ReadError (Value × Text)
  | 0, _ => .error .malformed
  | n + 1, t =>
    match t with
    | '"' :: r =>
      match stringBody? r with
      | some (s, rest) => .ok (.string s, rest)
      | none => .error .malformed
    | '[' :: r =>
      match gap r with
      | ']' :: rest => .ok (.array [], rest)
      | first => do
        let (items, rest) ← items? n first
        .ok (.array items, rest)
    | '\x7b' :: r =>
      match gap r with
      | '\x7d' :: rest => .ok (.object [], rest)
      | first => do
        let (members, rest) ← members? n [] first
        .ok (.object members, rest)
    | _ =>
      match constant? t with
      | some found => .ok found
      | none => number? t

/-- Reads the items of an array and its closing bracket. -/
def items? : Nat → Text → Except ReadError (List Value × Text)
  | 0, _ => .error .malformed
  | n + 1, t => do
    let (v, rest) ← value? n t
    match gap rest with
    | ']' :: rest => .ok ([v], rest)
    | ',' :: rest => do
      let (items, rest) ← items? n (gap rest)
      .ok (v :: items, rest)
    | _ => .error .malformed

/-- Reads the members of an object and its closing brace, entering them into those read before. -/
def members? : Nat → List (Text × Value) → Text → Except ReadError (List (Text × Value) × Text)
  | 0, _, _ => .error .malformed
  | n + 1, before, t =>
    match t with
    | '"' :: r =>
      match stringBody? r with
      | none => .error .malformed
      | some (key, rest) =>
        match gap rest with
        | ':' :: rest => do
          let (v, rest) ← value? n (gap rest)
          let members := Table.put before key v
          match gap rest with
          | '\x7d' :: rest => .ok (members, rest)
          | ',' :: rest => members? n members (gap rest)
          | _ => .error .malformed
        | _ => .error .malformed
    | _ => .error .malformed

end

def read (t : Text) : Except ReadError Value := do
  let (v, rest) ← value? (2 * t.length + 2) (gap t)
  if (gap rest).isEmpty then .ok v else .error .malformed

end Restage.Json
