import Restage.Text.Scan

/-!
# Type names

A type name in source code is a dotted name, optionally followed by a generic argument list in angle
brackets and by any number of array brackets.  `typeEnds` reads one: since a generic list may be
read up to any of the closing brackets that follow, it gives every end in order of preference, the
longest reading first.

`stripGenerics` removes generic argument lists from a declaration, the innermost ones first, until
none is left.
-/

namespace Restage.Java

open Text

/-! ## Reading a type name -/

def isTypeChar (c : Char) : Bool := isWord c || c == '.' || c == '$'

/-- Whether a character ends every generic argument list. -/
def endsGenerics (c : Char) : Bool :=
  c == '(' || c == ')' || c == '\x7b' || c == '\x7d' || c == ';' || c == '='

/-- The texts after each closing angle bracket of a generic argument list, the last one first. -/
def genericEnds : Text → List Text
  | [] => []
  | c :: r =>
    if endsGenerics c then []
    else if c = '>' then genericEnds r ++ [r]
    else genericEnds r

/-- Reads one pair of array brackets, with blanks before and inside. -/
def arrayBrackets? (t : Text) : Option Text :=
  match blanks t with
  | '[' :: r =>
    match blanks r with
    | ']' :: rest => some rest
    | _ => none
  | _ => none

theorem length_of_arrayBrackets? {t r : Text} (h : arrayBrackets? t = some r) :
    r.length < t.length := by
  unfold arrayBrackets? at h
  split at h
  · rename_i u h₁
    split at h
    · rename_i v h₂
      cases h
      have l₁ := length_blanks_le t
      have l₂ := length_blanks_le u
      simp only [h₁, h₂, List.length_cons] at l₁ l₂
      omega
    · simp at h
  · simp at h

/-- Reads any number of pairs of array brackets. -/
def arraySuffix (t : Text) : Text :=
  match _h : arrayBrackets? t with
  | none => t
  | some rest => arraySuffix rest
termination_by t.length
decreasing_by exact length_of_arrayBrackets? _h

/-- The texts that may follow a type name, in order of preference. -/
def typeEnds (t : Text) : List Text :=
  match run? isTypeChar t with
  | none => []
  | some (_, rest) =>
    let generic := match blanks rest with
      | '<' :: inner => (genericEnds inner).map arraySuffix
      | _ => []
    generic ++ [arraySuffix rest]

/-! ## Removing generic argument lists -/

/-- Whether a character may stand in an innermost generic argument list. -/
def isFlat (c : Char) : Bool := !(c == '<' || c == '>' || c == '(' || c == ')')

/-- Reads an innermost generic argument list. -/
def flatGenerics? : Text → Option (Unit × Text)
  | '<' :: r => (literal? ">" (r.dropWhile isFlat)).map ((), ·)
  | _ => none

/-- The text without its innermost generic argument lists. -/
def stripFlatGenerics (t : Text) : Text :=
  (scan flatGenerics? t).filterMap fun
    | .inl c => some c
    | .inr _ => none

/-- The text without its generic argument lists, nested ones included. -/
def stripGenerics (t : Text) : Text :=
  let less := stripFlatGenerics t
  if less.length < t.length then stripGenerics less else less
termination_by t.length

end Restage.Java
