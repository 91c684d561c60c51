import Restage.Text.Basic

/-!
# Masking quoted text

Brackets and separators inside a string or character literal must not be counted.  `mask` keeps the
quotes and blanks out what stands between them, so positions stay the same and every count over the
mask is a count over code.  Three characters open a literal: the double quote, the single quote and
the backtick; the literal ends at the next quote of the same kind that no backslash precedes.

The mask is a two-state reader written as a step function, `Quoting.step`, so that facts about a
text followed by another come from folding the step over the first.
-/

namespace Restage.Text

/-- Where a reader stands with respect to literals: in code, inside a literal of some quote, or
inside one and right after a backslash. -/
inductive Quoting where
  | code
  | inside (quote : Char)
  | escaped (quote : Char)
  deriving DecidableEq, Repr

def isQuote (c : Char) : Bool := c == '"' || c == '\x27' || c == '\x60'

namespace Quoting

/-- Where the reader stands after one more character. -/
def step : Quoting → Char → Quoting
  | code, c => if isQuote c then inside c else code
  | inside q, c => if c = '\\' then escaped q else if c = q then code else inside q
  | escaped q, _ => inside q

/-- What the mask shows of a character: itself in code and for a closing quote, else a space. -/
def shown : Quoting → Char → Char
  | code, c => c
  | inside q, c => if c = '\\' then ' ' else if c = q then c else ' '
  | escaped _, _ => ' '

def after (s : Quoting) (t : Text) : Quoting := t.foldl step s

end Quoting

/-- The mask of a text whose reading starts in state `s`. -/
def maskFrom (s : Quoting) : Text → Text
  | [] => []
  | c :: r => s.shown c :: maskFrom (s.step c) r

/-- The text with the contents of its literals blanked out. -/
def mask (t : Text) : Text := maskFrom .code t

@[simp] theorem maskFrom_nil (s : Quoting) : maskFrom s [] = [] := rfl

@[simp] theorem maskFrom_cons (s : Quoting) (c : Char) (r : Text) :
    maskFrom s (c :: r) = s.shown c :: maskFrom (s.step c) r := rfl

@[simp] theorem length_maskFrom (s : Quoting) (t : Text) : (maskFrom s t).length = t.length := by
  induction t generalizing s with
  | nil => rfl
  | cons c r ih => simp [ih]

theorem maskFrom_append (s : Quoting) (a b : Text) :
    maskFrom s (a ++ b) = maskFrom s a ++ maskFrom (s.after a) b := by
  induction a generalizing s with
  | nil => rfl
  | cons c r ih => simp [ih, Quoting.after]

end Restage.Text
