import Restage.Text.Mask

/-!
# Argument lists

The arguments of a call are separated by the commas that stand outside literals and outside every
kind of bracket.  Depth is counted with a sign, so a text with a stray closing bracket is cut
nowhere after it until the brackets are even again.
-/

namespace Restage.Java

open Text

def isOpening (c : Char) : Bool := c == '(' || c == '[' || c == '\x7b'

def isClosing (c : Char) : Bool := c == ')' || c == ']' || c == '\x7d'

/-- The parts of a text between top-level commas.  Each character comes with what the mask shows of
it; `part` holds the current part backwards and `depth` the brackets that are open. -/
def splitArgumentsFrom (depth : Int) (part : Text) : List (Char × Char) → List Text
  | [] => [trim part.reverse]
  | (shown, c) :: r =>
    if isOpening shown then splitArgumentsFrom (depth + 1) (c :: part) r
    else if isClosing shown then splitArgumentsFrom (depth - 1) (c :: part) r
    else if shown = ',' ∧ depth = 0 then trim part.reverse :: splitArgumentsFrom depth [] r
    else splitArgumentsFrom depth (c :: part) r

/-- The arguments in the text between the parentheses of a call; none if it is blank. -/
def splitArguments (t : Text) : List Text :=
  if allBlank t then [] else splitArgumentsFrom 0 [] ((mask t).zip t)

end Restage.Java
