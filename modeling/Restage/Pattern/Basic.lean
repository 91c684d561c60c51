import Restage.Number.Binary64

/-!
# Behavioural patterns

A pattern names the behaviour that a method implements, with a confidence between zero and one.
-/

namespace Restage

/-- A number between zero and one. -/
structure Confidence where
  value : Binary64
  isFraction : value.isFraction = true
  deriving DecidableEq, Repr

namespace Confidence

def zero : Confidence := ⟨.zero, by simp [Binary64.zero, Binary64.isFraction]⟩

/-- The number as a confidence, if it lies between zero and one. -/
def ofNumber? (x : Binary64) : Option Confidence :=
  if h : x.isFraction = true then some ⟨x, h⟩ else none

/-- The confidence as a multiple of the least positive number: a scale on which confidences are
compared. -/
def weight (c : Confidence) : Nat :=
  match c.value with
  | .finite _ units => units
  | _ => 0

end Confidence

/-- A named behavioural pattern. -/
structure Pattern where
  name : Text
  description : Text := []
  confidence : Confidence := .zero
  deriving DecidableEq, Repr

end Restage
