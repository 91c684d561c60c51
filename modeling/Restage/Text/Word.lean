import Restage.Text.Basic
import Restage.Text.WordTable

/-!
# Word characters, digits and names

A word character is a letter, a number or the underscore, in any script; a decimal digit is a digit
zero to nine of any script that has ten of them.  The ASCII part of each rule is decided without the
tables of `Text/WordTable.lean`, so statements about program text, which is nearly always ASCII,
never unfold them.
-/

namespace Restage.Text

/-- Whether a code point lies in one of the given closed ranges. -/
def inRanges (ranges : List (Nat × Nat)) (n : Nat) : Bool :=
  ranges.any fun r => r.1 ≤ n && n ≤ r.2

/-- Whether a character is an ASCII letter or the underscore: these may begin a name. -/
def isNameStart (c : Char) : Bool := c.isAlpha || c == '_'

/-- Whether a character is a letter, a number or the underscore. -/
def isWord (c : Char) : Bool :=
  if c.toNat < 128 then c.isAlphanum || c == '_' else inRanges wordRanges c.toNat

/-- The value of a decimal digit of any script. -/
def digitValue? (c : Char) : Option Nat :=
  if c.toNat < 128 then
    if c.isDigit then some (c.toNat - 48) else none
  else (digitZeros.find? fun z => z ≤ c.toNat && c.toNat < z + 10).map (c.toNat - ·)

def isDecimal (c : Char) : Bool := (digitValue? c).isSome

/-- The number that a run of decimal digits writes; other characters count as zero. -/
def natOfDigits (t : Text) : Nat := t.foldl (fun n c => 10 * n + (digitValue? c).getD 0) 0

def isWordText (t : Text) : Bool := !t.isEmpty && t.all isWord

/-- Whether a text is a name: a letter or underscore, then word characters. -/
def isName : Text → Bool
  | [] => false
  | c :: r => isNameStart c && r.all isWord

end Restage.Text
