import Restage.Java.Document
import Restage.Text.Mask

/-!
# Logical statements

Source code is never parsed into a tree.  The reader collapses physical lines into logical
statements: a statement ends at a line whose code ends with `;`, `{` or `}` while no parenthesis is
open, or at the end of an annotation.  A comment is a statement of its own; a block comment runs to
the line that holds `*/`.  Blank lines belong to no statement.

`Reading` says what the reader is in the middle of and `Reading.step` takes one more line; the
statements of a document are what the steps give, in order.
-/

namespace Restage.Java

open Text

/-- One logical statement: its collapsed text, the numbers of its first and last line, counted from
one, and the lines themselves. -/
structure Statement where
  text : Text
  line : Nat
  endLine : Nat
  rawLines : List Text
  deriving DecidableEq, Repr

namespace Statement

/-- The text with the contents of its literals blanked out. -/
def masked (s : Statement) : Text := mask s.text

def isComment (s : Statement) : Bool := startsWith "//" s.text || startsWith "/*" s.text

def isAnnotation (s : Statement) : Bool :=
  startsWith "@" s.text && !startsWith "@interface" s.text

/-- The number of opening braces outside literals. -/
def opens (s : Statement) : Nat := occurrences '\x7b' s.masked

/-- The number of closing braces outside literals. -/
def closes (s : Statement) : Nat := occurrences '\x7d' s.masked

/-- By how much the statement changes the brace depth. -/
def balance (s : Statement) : Int := (s.opens : Int) - s.closes

end Statement

/-- What stands before the first `//` of a masked text. -/
def beforeSlashes? : Text → Option Text
  | '/' :: '/' :: _ => some []
  | [] => none
  | c :: r => (beforeSlashes? r).map (c :: ·)

/-- The text without a trailing `//` comment that is not inside a literal.  A text that starts with
`//` is left alone. -/
def stripLineComment (t : Text) : Text :=
  match beforeSlashes? (mask t) with
  | some (c :: before) => trimRight (t.take (c :: before).length)
  | _ => t

/-- What the reader is in the middle of. -/
inductive Reading where
  /-- Nothing: the next line starts a statement. -/
  | idle
  /-- Code that started at line `start`, with `depth` parentheses open. -/
  | code (start : Nat) (parts raw : List Text) (depth : Int)
  /-- A block comment that started at line `start`. -/
  | comment (start : Nat) (parts raw : List Text)
  deriving DecidableEq, Repr

namespace Reading

/-- The statement made of some parts; empty parts leave no gap. -/
def statement (start endLine : Nat) (parts raw : List Text) : Statement :=
  { text := join " " (parts.filter (!·.isEmpty)), line := start, endLine, rawLines := raw }

/-- Whether collapsed code is a whole statement once its parentheses are balanced. -/
def complete (joined : Text) : Bool :=
  endsWith ";" joined || endsWith "\x7b" joined || endsWith "\x7d" joined || startsWith "@" joined

def takeCode (number : Nat) (line stripped : Text) (start : Nat) (parts raw : List Text)
    (depth : Int) : Reading × Option Statement :=
  let code := stripLineComment stripped
  if code.isEmpty then (.code start parts raw depth, none)
  else
    let parts := parts ++ [code]
    let raw := raw ++ [line]
    let masked := mask code
    let depth := depth + occurrences '(' masked - occurrences ')' masked
    if depth > 0 then (.code start parts raw depth, none)
    else if complete (join " " parts) then (.idle, some (statement start number parts raw))
    else (.code start parts raw depth, none)

def takeComment (number : Nat) (line stripped : Text) (start : Nat) (parts raw : List Text) :
    Reading × Option Statement :=
  let parts := parts ++ [stripped]
  let raw := raw ++ [line]
  if occursIn "*/" stripped then (.idle, some (statement start number parts raw))
  else (.comment start parts raw, none)

/-- Takes the line with the given number: what the reader is then in the middle of, and the
statement that the line completes. -/
def step (reading : Reading) (number : Nat) (line : Text) : Reading × Option Statement :=
  let stripped := trim line
  match reading with
  | .comment start parts raw => takeComment number line stripped start parts raw
  | .code start parts raw depth => takeCode number line stripped start parts raw depth
  | .idle =>
    if stripped.isEmpty then (.idle, none)
    else if startsWith "//" stripped then
      (.idle, some { text := stripped, line := number, endLine := number, rawLines := [line] })
    else if startsWith "/*" stripped then takeComment number line stripped number [] []
    else takeCode number line stripped number [] [] 0

/-- The statement that the end of the document leaves unfinished. -/
def finish (endLine : Nat) : Reading → Option Statement
  | .idle => none
  | .code start parts raw _ => some (statement start endLine parts raw)
  | .comment start parts raw => some (statement start endLine parts raw)

/-- The statements of the remaining lines, the first of which has the given number. -/
def statements (reading : Reading) (number : Nat) : List Text → List Statement
  | [] => (finish (number - 1) reading).toList
  | line :: rest =>
    let (next, done) := reading.step number line
    done.toList ++ statements next (number + 1) rest

end Reading

def Document.statements (d : Document) : List Statement := Reading.idle.statements 1 d.lines

end Restage.Java
