import Restage.Text.Lines

/-!
# Documents

A source document is its sequence of lines.  Nothing of the text is lost but the kind of line
boundary, so the document can be echoed with line numbers beside what was made of it.
-/

namespace Restage.Java

open Text

/-- The lines of one source file. -/
structure Document where
  lines : List Text
  deriving DecidableEq, Repr

namespace Document

def ofText (t : Text) : Document := ⟨Text.lines t⟩

def text (d : Document) : Text := join "\n" d.lines

def numbered (d : Document) : Text :=
  join "\n" (d.lines.zipIdx 1 |>.map fun (line, n) => padLeft 5 (ofNat n) ++ ": " ++ line)

end Document

end Restage.Java
