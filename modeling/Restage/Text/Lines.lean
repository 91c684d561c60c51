import Restage.Text.Basic

/-!
# Lines

A document is cut into lines at every line boundary: the line feed, the carriage return, the two
together, the vertical tab, the form feed, the information separators, the next-line control and the
two separators of the wider character set.  A final boundary ends the last line and starts no new
one.  Files are read with every carriage return taken as a line feed.
-/

namespace Restage.Text

def lineEnds : List Nat := [0x0A, 0x0B, 0x0C, 0x0D, 0x1C, 0x1D, 0x1E, 0x85, 0x2028, 0x2029]

def isLineEnd (c : Char) : Bool := lineEnds.contains c.toNat

/-- The lines that follow once `line`, held backwards, has been read of the current one. -/
def linesFrom (line : Text) : Text → List Text
  | [] => if line.isEmpty then [] else [line.reverse]
  | '\r' :: '\n' :: r => line.reverse :: linesFrom [] r
  | c :: r => if isLineEnd c then line.reverse :: linesFrom [] r else linesFrom (c :: line) r

def lines (t : Text) : List Text := linesFrom [] t

/-- The text with each carriage return, alone or before a line feed, made a line feed. -/
def unifyNewlines : Text → Text
  | [] => []
  | '\r' :: '\n' :: r => '\n' :: unifyNewlines r
  | c :: r => (if c = '\r' then '\n' else c) :: unifyNewlines r

end Restage.Text
