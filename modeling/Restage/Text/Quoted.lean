import Restage.Text.PrintTable
import Restage.Text.Word

/-!
# Quoted text in messages

Messages show a text between single quotes, or between double quotes if it holds a single quote and
no double quote.  The backslash, the quote in use and every character without a printed form are
written as escapes.
-/

namespace Restage.Text

/-- Whether a character has a printed form. -/
def isPrintable (c : Char) : Bool :=
  if c.toNat < 128 then 32 ≤ c.toNat && c.toNat < 127 else !inRanges unprintableRanges c.toNat

/-- The last `width` hexadecimal digits of a number, in lower case. -/
def hexDigits (width n : Nat) : Text :=
  let digits := Nat.toDigits 16 n
  List.replicate (width - digits.length) '0' ++ digits

/-- A character as it stands between the given quotes. -/
def quotedChar (quote c : Char) : Text :=
  if c = quote ∨ c = '\\' then ['\\', c]
  else if c = '\t' then ['\\', 't']
  else if c = '\n' then ['\\', 'n']
  else if c = '\r' then ['\\', 'r']
  else if isPrintable c then [c]
  else if c.toNat < 0x100 then ['\\', 'x'] ++ hexDigits 2 c.toNat
  else if c.toNat < 0x10000 then ['\\', 'u'] ++ hexDigits 4 c.toNat
  else ['\\', 'U'] ++ hexDigits 8 c.toNat

def quoted (t : Text) : Text :=
  let quote := if t.contains '\x27' && !t.contains '"' then '"' else '\x27'
  quote :: t.flatMap (quotedChar quote) ++ [quote]

end Restage.Text
