import Restage.Java.Annotation

/-!
# Step phrases

The phrase of a step has placeholders, numbered or named.  Every one of them takes a string.
-/

namespace Restage.Conversion

open Text

/-- Whether a text is the inside of a placeholder: a number, or a name that may have hyphens. -/
def isPlaceholder : Text → Bool
  | [] => false
  | c :: r =>
    (c :: r).all isDecimal || (isNameStart c && r.all fun d => isWord d || d == '-')

def placeholder? : Text → Option (Text × Text)
  | '\x7b' :: r => do
    let (inside, rest) ← cutFirst? '\x7d' r
    if isPlaceholder inside then some ("\x7bstring\x7d", rest) else none
  | _ => none

def stepPhrase (phrase : Text) : Text := exchangeAll (fun _ => placeholder?) phrase

end Restage.Conversion
