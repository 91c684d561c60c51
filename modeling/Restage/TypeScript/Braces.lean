import Restage.Text.Lines
import Restage.Text.Mask

/-!
# Counting braces

The braces of a text are counted outside string literals and comments.  A block comment is one that
starts its line; it ends with the line on which its end stands.
-/

namespace Restage.TypeScript

open Text

/-- The numbers of opening and closing braces. -/
structure Braces where
  opens : Nat := 0
  closes : Nat := 0
  deriving DecidableEq, Repr

namespace Braces

/-- What precedes the first `//`. -/
def beforeComment : Text → Text
  | '/' :: '/' :: _ => []
  | c :: r => c :: beforeComment r
  | [] => []

def ofLine (line : Text) : Braces :=
  let code := beforeComment (mask line)
  { opens := occurrences '\x7b' code, closes := occurrences '\x7d' code }

def add (a b : Braces) : Braces := { opens := a.opens + b.opens, closes := a.closes + b.closes }

/-- The braces of lines, given whether the first one is inside a block comment. -/
def ofLines (inBlock : Bool) : List Text → Braces
  | [] => {}
  | line :: rest =>
    if inBlock || startsWith "/*" (trimLeft line) then ofLines (!occursIn "*/" line) rest
    else (ofLine line).add (ofLines false rest)

def ofText (t : Text) : Braces := ofLines false (lines t)

end Braces

end Restage.TypeScript
