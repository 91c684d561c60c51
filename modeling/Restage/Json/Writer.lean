import Restage.Json.Value
import Restage.Number.Shortest

/-!
# Writing JSON

A value is written on one line in ASCII: a comma and a space between items, a colon and a space
after a key, and an escape for every character outside the printable ASCII range.  A character
beyond the basic plane is written as its two halves.  A value may also be written on several lines,
indented by two spaces for each level.
-/

namespace Restage.Json

/-- A hexadecimal digit, in lower case. -/
def hexChar (n : Nat) : Char := Char.ofNat (if n < 10 then 48 + n else 87 + n)

/-- The escape of a code unit by its four hexadecimal digits. -/
def unitEscape (n : Nat) : Text :=
  ['\\', 'u', hexChar (n / 4096 % 16), hexChar (n / 256 % 16), hexChar (n / 16 % 16),
   hexChar (n % 16)]

/-- A character as it stands in a written string. -/
def writeChar (c : Char) : Text :=
  match c with
  | '"' => ['\\', '"']
  | '\\' => ['\\', '\\']
  | '\n' => ['\\', 'n']
  | '\r' => ['\\', 'r']
  | '\t' => ['\\', 't']
  | '\x0c' => ['\\', 'f']
  | '\x08' => ['\\', 'b']
  | c =>
    if 32 ≤ c.toNat ∧ c.toNat < 127 then [c]
    else if c.toNat < 0x10000 then unitEscape c.toNat
    else
      let n := c.toNat - 0x10000
      unitEscape (0xD800 + n / 0x400) ++ unitEscape (0xDC00 + n % 0x400)

def writeString (t : Text) : Text := '"' :: t.flatMap writeChar ++ ['"']

/-- A written number of the 64-bit format. -/
def writeReal : Binary64 → Text
  | .finite negative units =>
    (if negative then "-" else "") ++
      (if units % Binary64.one = 0 then Text.ofNat (units / Binary64.one) ++ ".0"
       else (Binary64.shortest units).positional)
  | .infinite negative => if negative then "-Infinity" else "Infinity"
  | .nan => "NaN"

mutual

/-- A value written on one line. -/
def write : Value → Text
  | .null => "null"
  | .bool true => "true"
  | .bool false => "false"
  | .int n => Text.ofInt n
  | .real x => writeReal x
  | .string t => writeString t
  | .array items => '[' :: writeItems items ++ [']']
  | .object members => '\x7b' :: writeMembers members ++ ['\x7d']

/-- The items of an array, a comma and a space between them. -/
def writeItems : List Value → Text
  | [] => []
  | [v] => write v
  | v :: rest => write v ++ ", " ++ writeItems rest

/-- The members of an object, a comma and a space between them. -/
def writeMembers : List (Text × Value) → Text
  | [] => []
  | [(key, v)] => writeString key ++ ": " ++ write v
  | (key, v) :: rest => writeString key ++ ": " ++ write v ++ ", " ++ writeMembers rest

end

/-! ## Several lines -/

def breakLine (depth : Nat) : Text := '\n' :: List.replicate (2 * depth) ' '

mutual

/-- A value written on several lines: every item and every member has a line of its own. -/
def writeIndented (depth : Nat) : Value → Text
  | .array (v :: rest) =>
    '[' :: breakLine (depth + 1) ++ writeIndented (depth + 1) v
      ++ writeIndentedItems (depth + 1) rest ++ breakLine depth ++ [']']
  | .object ((key, v) :: rest) =>
    '\x7b' :: breakLine (depth + 1) ++ writeString key ++ ": " ++ writeIndented (depth + 1) v
      ++ writeIndentedMembers (depth + 1) rest ++ breakLine depth ++ ['\x7d']
  | v => write v

/-- The further items of an array. -/
def writeIndentedItems (depth : Nat) : List Value → Text
  | [] => []
  | v :: rest => ',' :: breakLine depth ++ writeIndented depth v ++ writeIndentedItems depth rest

/-- The further members of an object. -/
def writeIndentedMembers (depth : Nat) : List (Text × Value) → Text
  | [] => []
  | (key, v) :: rest =>
    ',' :: breakLine depth ++ writeString key ++ ": " ++ writeIndented depth v
      ++ writeIndentedMembers depth rest

end

end Restage.Json
