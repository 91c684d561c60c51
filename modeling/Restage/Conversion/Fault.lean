import Restage.Pattern.Action

/-!
# Faults

A duration is the only thing in a source file whose conversion can fail outright: a literal with too
many digits is not read, and one whose seconds exceed every number of the 64-bit format cannot be
written.  A recognizer can fail the conversion as well, by a reply that cannot be listed.  Such a
fault ends the conversion of the file.
-/

namespace Restage.Conversion

open Text

/-- Why a file cannot be converted. -/
inductive Fault where
  /-- A duration literal has too many digits. -/
  | tooManyDigits (count : Nat)
  /-- A duration in seconds is too large for a number of the 64-bit format. -/
  | durationTooLarge
  /-- The reply of the recognizer to a question cannot be listed. -/
  | unlistable (question : List Action) (message : Text)
  deriving DecidableEq, Repr

/-- The wording of the error about a whole number of too many digits. -/
def tooManyDigitsMessage (count : Nat) : Text :=
  "Exceeds the limit (4300 digits) for integer string conversion: value has " ++ ofNat count
    ++ " digits; use sys.set_int_max_str_digits() to increase the limit"

def Fault.message : Fault → Text
  | .tooManyDigits count => tooManyDigitsMessage count
  | .durationTooLarge => "integer division result too large for a float"
  | .unlistable _ message => message

/-- What the recognizer was asked about when the fault came up. -/
def Fault.questions : Fault → List (List Action)
  | .unlistable question _ => [question]
  | .tooManyDigits _ | .durationTooLarge => []

end Restage.Conversion
