import Restage.Text.Scan

/-!
# String literals

A string literal escapes the double quote and the backslash.  Reading a string expression undoes
these two escapes between its first and last quote; a concatenation inside it is left in place, for
the locator printer turns it into a slot.  `encode` writes the literal of a text.
-/

namespace Restage.Java

open Text

/-- The literal of a text: backslashes doubled, double quotes preceded by a backslash. -/
def encodeString (t : Text) : Text :=
  '"' :: exchange '"' ['\\', '"'] (exchange '\\' ['\\', '\\'] t) ++ ['"']

/-- The content of a string expression that starts and ends with a double quote: escaped quotes are
undone first, then doubled backslashes. -/
def unquote? (t : Text) : Option Text :=
  match trim t with
  | '"' :: r => (dropFinal? '"' r).map fun inner =>
    exchangePair '\\' '\\' ['\\'] (exchangePair '\\' '"' ['"'] inner)
  | _ => none

/-- Reads the seam of two adjacent string literals, `" + "`. -/
def seam? : Text → Option (Unit × Text)
  | '"' :: r => do
    let r ← literal? "+" (blanks r)
    let r ← literal? "\"" (blanks r)
    pure ((), r)
  | _ => none

/-- The content of a string expression, with concatenations of literals joined. -/
def stringValue? (t : Text) : Option Text :=
  unquote? ((scan seam? t).filterMap fun
    | .inl c => some c
    | .inr _ => none)

end Restage.Java
