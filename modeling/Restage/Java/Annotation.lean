import Restage.Java.Arguments
import Restage.Java.StringLiteral
import Restage.Table

/-!
# Annotations

An annotation is `@`, a dotted name and, optionally, arguments in parentheses.  A declaration may be
preceded by any number of them.  The arguments are `key = expression` pairs; a single positional
argument goes under the key `value`.

Some annotations mark a method as a step of a scenario: `stepAnnotation?` finds the first of them
and the phrase that it gives.
-/

namespace Restage.Java

open Text

/-- Whether a character may stand in a dotted name. -/
def isDotted (c : Char) : Bool := isWord c || c == '.'

/-- Cuts a text, paired with its mask, after the parenthesis that closes the one `depth` levels
out. -/
def cutParenthesis? (depth : Nat) : List (Char × Char) → Option (Text × Text)
  | [] => none
  | (shown, c) :: r =>
    if shown = '(' then (cutParenthesis? (depth + 1) r).map fun (a, b) => (c :: a, b)
    else if shown = ')' then
      if depth ≤ 1 then some ([c], r.map (·.2))
      else (cutParenthesis? (depth - 1) r).map fun (a, b) => (c :: a, b)
    else (cutParenthesis? depth r).map fun (a, b) => (c :: a, b)

def parenthesised? (t : Text) : Option (Text × Text) := cutParenthesis? 0 ((mask t).zip t)

/-- The annotation at the start of a text and what follows it, without blanks around either.
Arguments that are never closed reach to the end. -/
def leadingAnnotation? (t : Text) : Option (Text × Text) :=
  if startsWith "@interface" t then none
  else match t with
    | '@' :: r => do
      let (name, rest) ← run? isDotted r
      match blanks rest with
      | '(' :: _ =>
        match parenthesised? (blanks rest) with
        | some (_, after) => some (trim (consumed t after), trim after)
        | none => some (trim t, [])
      | _ => some ('@' :: name, trim rest)
    | _ => none

theorem length_of_cutParenthesis? {depth : Nat} {pairs : List (Char × Char)} {a b : Text}
    (h : cutParenthesis? depth pairs = some (a, b)) : b.length < pairs.length := by
  induction pairs generalizing depth a b with
  | nil => simp [cutParenthesis?] at h
  | cons p r ih =>
    obtain ⟨shown, c⟩ := p
    have step {d : Nat} (h : (cutParenthesis? d r).map (fun (x : Text × Text) => (c :: x.1, x.2))
        = some (a, b)) : b.length < r.length + 1 := by
      obtain ⟨⟨a', b'⟩, h', e⟩ := Option.map_eq_some_iff.1 h
      cases e
      exact Nat.lt_succ_of_lt (ih h')
    rw [cutParenthesis?] at h
    simp only [List.length_cons]
    split at h
    · exact step h
    · split at h
      · split at h
        · cases h
          simp
        · exact step h
      · exact step h

theorem length_of_leadingAnnotation? {t a r : Text} (h : leadingAnnotation? t = some (a, r)) :
    r.length < t.length := by
  unfold leadingAnnotation? at h
  split at h
  · simp at h
  · split at h
    · rename_i u _
      cases hn : run? isDotted u with
      | none => simp [hn] at h
      | some p =>
        obtain ⟨name, rest⟩ := p
        have hrest : rest.length < u.length := by
          cases u with
          | nil => simp [run?] at hn
          | cons d v =>
            rw [run?] at hn
            split at hn
            · cases hn
              exact Nat.lt_succ_of_le (List.dropWhile_suffix _).length_le
            · simp at hn
        have hblanks : (blanks rest).length ≤ rest.length := (List.dropWhile_suffix _).length_le
        simp only [hn, Option.bind_eq_bind, Option.bind_some] at h
        simp only [List.length_cons]
        split at h
        · split at h
          · rename_i after hp
            cases h
            have h₁ := length_of_cutParenthesis? hp
            have h₂ := length_trim_le after
            simp only [List.length_zip, mask, length_maskFrom, Nat.min_self] at h₁
            omega
          · cases h
            simp
        · cases h
          have := length_trim_le rest
          omega
    · simp at h

/-- The annotations at the start of a text without leading blanks, and what follows them. -/
def splitAnnotationsFrom (t : Text) : List Text × Text :=
  match _h : leadingAnnotation? t with
  | none => ([], t)
  | some (first, rest) =>
    let (more, declaration) := splitAnnotationsFrom rest
    (first :: more, declaration)
termination_by t.length
decreasing_by exact length_of_leadingAnnotation? _h

def splitAnnotations (t : Text) : List Text × Text := splitAnnotationsFrom (trim t)

/-- The last part of an annotation's dotted name; empty if the text is no annotation. -/
def annotationName (text : Text) : Text :=
  match text with
  | '@' :: r => afterLast '.' (r.takeWhile isDotted)
  | _ => []

/-- Enters one argument of an annotation: a `key = expression` pair, or the first positional
argument under `value`. -/
def putAttribute (attributes : Table Text) (part : Text) : Table Text :=
  let key := (mask part).takeWhile (· ≠ '=')
  let name := trim (part.take key.length)
  if key.length < part.length ∧ isWordText name then
    attributes.put name (trim (part.drop (key.length + 1)))
  else if part.isEmpty then attributes
  else attributes.putNew "value" part

def annotationAttributes (text : Text) : Table Text :=
  match cutFirst? '(' text with
  | none => []
  | some (_, rest) =>
    match dropFinal? ')' rest with
    | none => []
    | some arguments => (splitArguments arguments).foldl putAttribute []

def stepNames : List Text := ["QAFTestStep", "Given", "When", "Then", "And", "But", "Step"]

/-- A step annotation: its name and the phrase that it matches. -/
structure Step where
  name : Text
  phrase : Text
  deriving DecidableEq, Repr

/-- The phrase of a step annotation: its description if that is given and not empty, else its
value. -/
def stepPhrase? (attributes : Table Text) : Option Text :=
  ((attributes.get? "description").filter (!·.isEmpty)).or (attributes.get? "value")

def stepAnnotation? (annotations : List Text) : Option Step :=
  (annotations.find? fun a => stepNames.contains (annotationName a)).map fun a =>
    { name := annotationName a
      phrase := ((stepPhrase? (annotationAttributes a)).bind stringValue?).getD [] }

end Restage.Java
