import Restage.Conversion.Context
import Restage.Conversion.Fault
import Restage.Conversion.Lookup
import Restage.Pattern.Recognizer
import Restage.TypeScript.Sheet

/-!
# Walking over a file

A file is converted in one walk over its statements.  Two stacks are kept in step: the frames say
which source construct each open brace belongs to, and the scopes of the sheet say what is open in
the output.  A frame is left as soon as the brace depth of the source falls below the depth of its
body.
-/

namespace Restage.Conversion

open Text Java TypeScript

/-- How a class is converted. -/
inductive Style where
  /-- As a class that extends `Error`. -/
  | exception
  /-- As step registrations and functions of the module. -/
  | steps
  /-- As a class around a page. -/
  | page
  deriving DecidableEq, Repr

/-- What the statements inside an open brace belong to. -/
inductive Construct where
  /-- Something that is left out. -/
  | skipped
  | classBody (info : ClassInfo) (style : Style)
  /-- A method; `mark` is the position of its header on the sheet. -/
  | method (name : Text) (mark : Nat)
  | block
  /-- Something that is kept as comments. -/
  | commented
  deriving DecidableEq, Repr

/-- Whether a construct has a scope of its own on the sheet. -/
def Construct.hasScope : Construct → Bool
  | classBody _ style => style ≠ .steps
  | method _ _ | block => true
  | skipped | commented => false

/-- An open brace of the source: what it belongs to and the brace depth of its body. -/
structure Frame where
  construct : Construct
  depth : Nat
  deriving DecidableEq, Repr

/-- What a walk depends on: where classes are looked up, and whom to ask for patterns. -/
structure Surroundings where
  lookup : Lookup
  recognizer : Option Recognizer

/-- The state of a walk. -/
structure Walk where
  context : Context
  sheet : Sheet
  /-- The brace depth of the source. -/
  depth : Nat := 0
  /-- The open braces, the innermost first. -/
  frames : List Frame := []
  /-- Annotations that wait for their declaration. -/
  pending : List Text := []
  /-- The patterns of the methods. -/
  patterns : Table (List Pattern) := []
  /-- What the recognizer was asked about. -/
  asked : List (List Action) := []
  /-- Whether the step keywords have been bound. -/
  bound : Bool := false
  /-- The first reply that could not be listed.  It ends the walk with the statement at hand. -/
  broken : Option Fault := none
  deriving DecidableEq, Repr

namespace Walk

def onSheet (w : Walk) (f : Sheet → Sheet) : Walk := { w with sheet := f w.sheet }

def onContext (w : Walk) (f : Context → Context) : Walk := { w with context := f w.context }

/-- Notes that a statement was left out or commented out. -/
def diagnose (w : Walk) (s : Statement) (reason : Text) : Walk :=
  w.onContext (·.diagnose s.line reason s.text)

/-- Keeps a statement as a comment. -/
def todo (w : Walk) (s : Statement) : Walk :=
  (w.diagnose s "emitted as TODO").onSheet (·.emit ("// TODO: " ++ s.text))

/-- Enters a construct whose body is at the current depth. -/
def enter (w : Walk) (construct : Construct) : Walk :=
  { w with frames := ⟨construct, w.depth⟩ :: w.frames }

/-- Leaves a statement out; if it opened a brace, so is what is inside. -/
def skip (w : Walk) (s : Statement) (reason : Text) (opened : Bool) : Walk :=
  let w := w.diagnose s reason
  if opened then w.enter .skipped else w

end Walk

end Restage.Conversion
