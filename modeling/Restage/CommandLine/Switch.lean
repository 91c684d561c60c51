import Restage.Text.Quoted

/-!
# Switches on a command line

The words of a command line are values, switches, or the separator `--`, after which all words are
values.  A switch may be shortened as long as only one switch starts that way, and may carry a value
behind an equals sign.  Short switches may be written together behind one hyphen.
-/

namespace Restage.CommandLine

open Text

/-- A switch: its spellings, what it stands for, and whether a value follows it. -/
structure Switch (α : Type) where
  spellings : List Text
  meaning : α
  takesValue : Bool := false

variable {α : Type}

namespace Switch

def title (s : Switch α) : Text := join "/" s.spellings

def complaint (s : Switch α) (message : Text) : Text :=
  "argument " ++ s.title ++ ": " ++ message

end Switch

def spelled (switches : List (Switch α)) : List (Text × Switch α) :=
  switches.flatMap fun s => s.spellings.map (·, s)

def switch? (switches : List (Switch α)) (spelling : Text) : Option (Switch α) :=
  ((spelled switches).find? (·.1 = spelling)).map (·.2)

/-- A word of a command line. -/
inductive Word (α : Type) where
  | value (t : Text)
  | separator
  /-- A switch, how it was spelled, and the value that it carries. -/
  | switch (s : Switch α) (spelling : Text) (carried : Option Text)
  /-- A word that looks like a switch and is none. -/
  | unknown (t : Text)

/-! ## Reading a word -/

/-- The two sides of the first equals sign. -/
def carriedValue (t : Text) : Text × Option Text :=
  match cutFirst? '=' t with
  | some (spelling, v) => (spelling, some v)
  | none => (t, none)

def isNegativeNumber (t : Text) : Bool :=
  match t with
  | '-' :: r =>
    (!r.isEmpty && r.all isDecimal)
    || (match cutFirst? '.' r with
      | some (whole, places) => whole.all isDecimal && !places.isEmpty && places.all isDecimal
      | none => false)
  | _ => false

/-- The switches that a word may be short for, with their spellings and the value carried. -/
def candidates (switches : List (Switch α)) (t : Text) :
    List (Text × Switch α × Option Text) :=
  if startsWith "--" t then
    let (start, carried) := carriedValue t
    ((spelled switches).filter fun (spelling, _) => startsWith start spelling).map
      fun (spelling, s) => (spelling, s, carried)
  else
    (spelled switches).filterMap fun (spelling, s) =>
      if spelling = t.take 2 then some (spelling, s, some (t.drop 2))
      else if startsWith t spelling then some (spelling, s, none)
      else none

/-- Reads a word that starts with a hyphen and spells no switch exactly. -/
def readShortened (switches : List (Switch α)) (t : Text) : Except Text (Word α) :=
  match candidates switches t with
  | [(spelling, s, carried)] => .ok (.switch s spelling carried)
  | [] => .ok (if isNegativeNumber t || t.contains ' ' then .value t else .unknown t)
  | several =>
    .error ("ambiguous option: " ++ t ++ " could match " ++ join ", " (several.map (·.1)))

def readWord (switches : List (Switch α)) (t : Text) : Except Text (Word α) :=
  if !startsWith "-" t || t = "-".toList then .ok (.value t)
  else match switch? switches t with
    | some s => .ok (.switch s t none)
    | none =>
      let (spelling, carried) := carriedValue t
      match carried, switch? switches spelling with
      | some v, some s => .ok (.switch s spelling (some v))
      | _, _ => readShortened switches t

def readWords (switches : List (Switch α)) : List Text → Except Text (List (Text × Word α))
  | [] => .ok []
  | t :: rest =>
    if t = "--".toList then .ok ((t, .separator) :: rest.map fun r => (r, .value r))
    else do
      let word ← readWord switches t
      let words ← readWords switches rest
      .ok ((t, word) :: words)

/-! ## What a switch does -/

/-- A message about a value that a switch cannot carry. -/
def cannotCarry (s : Switch α) (v : Text) : Text :=
  s.complaint ("ignored explicit argument " ++ quoted v)

/-- The switches written together behind one hyphen, after the switch `s` without a value. -/
def together (switches : List (Switch α)) (s : Switch α) :
    Text → Except Text (List (Switch α × Option Text))
  | [] => .ok [(s, none)]
  | c :: r =>
    match switch? switches ['-', c] with
    | none => .error (cannotCarry s (c :: r))
    | some next =>
      if next.takesValue ∧ !r.isEmpty then .ok [(s, none), (next, some r)]
      else (together switches next r).map ((s, none) :: ·)

/-- The switches that a word stands for, each with the value that it carries. -/
def expand (switches : List (Switch α)) (s : Switch α) (spelling : Text) :
    Option Text → Except Text (List (Switch α × Option Text))
  | none => .ok [(s, none)]
  | some v =>
    if s.takesValue then .ok [(s, some v)]
    else if startsWith "--" spelling ∨ v.isEmpty then .error (cannotCarry s v)
    else together switches s v

end Restage.CommandLine
