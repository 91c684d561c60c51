import Restage.Text.Word

/-!
# Scanning

Small readers from which the recognisers of declarations and statements are put together.  A reader
takes the text from some position on and gives the text that remains, or `none` if what it looks for
does not stand there; `consumed` recovers what was read.  Where a shape can be read in several ways
the readers give the remaining texts in order of preference, and the first one that leads to a whole
reading is taken.

`scan` walks over a text and tries a reader at every position: it is how a text is searched for all
occurrences of a shape, no character belonging to two of them.
-/

namespace Restage.Text

/-! ## Readers -/

def literal? (w t : Text) : Option Text := w.isPrefixOf? t

def blanks (t : Text) : Text := t.dropWhile isBlank

/-- Reads one or more blanks. -/
def someBlanks? : Text → Option Text
  | c :: r => if isBlank c then some (blanks r) else none
  | [] => none

/-- Reads one or more characters that satisfy `p`, as many as there are. -/
def run? (p : Char → Bool) : Text → Option (Text × Text)
  | c :: r => if p c then some (c :: r.takeWhile p, r.dropWhile p) else none
  | [] => none

def word? (t : Text) : Option (Text × Text) := run? isWord t

/-- Reads a name: a letter or underscore, then word characters. -/
def name? : Text → Option (Text × Text)
  | c :: r => if isNameStart c then some (c :: r.takeWhile isWord, r.dropWhile isWord) else none
  | [] => none

/-- Reads the first of the given words that stands here. -/
def oneOf? (choices : List Text) (t : Text) : Option (Text × Text) :=
  choices.findSome? fun w => (literal? w t).map (w, ·)

/-- Reads a string literal, given the text after its opening quote: the characters up to the closing
quote, backslash pairs kept, and what follows that quote.  A backslash takes any character but a
line feed. -/
def stringTail? : Text → Option (Text × Text)
  | [] => none
  | '"' :: r => some ([], r)
  | '\\' :: c :: r =>
    if c = '\n' then none else (stringTail? r).map fun (body, rest) => ('\\' :: c :: body, rest)
  | c :: r => if c = '\\' then none else (stringTail? r).map fun (body, rest) => (c :: body, rest)

/-- Reads a string literal; the text that is read includes both quotes. -/
def string? : Text → Option (Text × Text)
  | '"' :: r => (stringTail? r).map fun (body, rest) => ('"' :: body ++ ['"'], rest)
  | _ => none

/-! ## Readers leave less -/

theorem length_blanks_le (t : Text) : (blanks t).length ≤ t.length :=
  (List.dropWhile_sublist _).length_le

theorem literal?_nil (t : Text) : literal? [] t = some t := rfl

theorem literal?_cons_nil (c : Char) (w : Text) : literal? (c :: w) [] = none := rfl

theorem literal?_cons_cons (c d : Char) (w t : Text) :
    literal? (c :: w) (d :: t) = if c == d then literal? w t else none := rfl

theorem length_of_literal? {w t r : Text} (h : literal? w t = some r) :
    t.length = w.length + r.length := by
  induction w generalizing t with
  | nil =>
    rw [literal?_nil] at h
    cases h
    simp
  | cons c w ih =>
    cases t with
    | nil =>
      rw [literal?_cons_nil] at h
      cases h
    | cons d t =>
      rw [literal?_cons_cons] at h
      split at h
      · have := ih (t := t) h
        simp only [List.length_cons]
        omega
      · cases h

/-! ## Ends -/

/-- Whether a text is at its end: nothing remains, or one line feed. -/
def atEnd (t : Text) : Bool := t.isEmpty || t == ['\n']

def onOneLine (t : Text) : Bool := !t.contains '\n'

/-- The rest of the last line, without its line feed. -/
def lastLine? (t : Text) : Option Text :=
  if atEnd (t.dropWhile (· ≠ '\n')) then some (t.takeWhile (· ≠ '\n')) else none

def dropFinalNewline (t : Text) : Text := (dropFinal? '\n' t).getD t

def beforeSemicolon? (t : Text) : Option Text := (dropFinal? ';' (dropFinalNewline t)).map trimRight

def beforeCloseSemicolon? (t : Text) : Option Text := beforeSemicolon? t >>= dropFinal? ')'

/-- The arguments of a call, given the text after its opening parenthesis: all on one line up to
the `)` before the final semicolon. -/
def callArguments? (t : Text) : Option Text := (beforeCloseSemicolon? t).filter onOneLine

/-- The shortest value that ends before the blanks in front of the final semicolon, given the text
after its `=`.  A value of blanks only is the last of them that does not end the line. -/
def initialValue? (t : Text) : Option Text := do
  let body ← dropFinal? ';' (dropFinalNewline t)
  let value := trim body
  if value.isEmpty then (body.reverse.find? (· ≠ '\n')).map ([·])
  else if onOneLine value then some value else none

/-! ## All occurrences of a shape -/

/-- Walks over a text with the character before it.  At every position outside an occurrence the
reader is tried on the text from there; an occurrence gives its result in place of its characters.
`skip` counts the characters that still belong to the last occurrence. -/
def scanFrom {α : Type} (reader : Option Char → Text → Option (α × Text))
    (before : Option Char) (skip : Nat) : Text → List (Char ⊕ α)
  | [] => []
  | c :: r =>
    match skip with
    | n + 1 => scanFrom reader (some c) n r
    | 0 =>
      match reader before (c :: r) with
      | some (a, rest) => .inr a :: scanFrom reader (some c) (r.length - rest.length) r
      | none => .inl c :: scanFrom reader (some c) 0 r

/-- All occurrences of a shape in a text, with the characters around them. -/
def scan {α : Type} (reader : Text → Option (α × Text)) (t : Text) : List (Char ⊕ α) :=
  scanFrom (fun _ => reader) none 0 t

/-- The text with every occurrence exchanged for the text that its reader gives. -/
def exchangeAll (reader : Option Char → Text → Option (Text × Text)) (t : Text) : Text :=
  (scanFrom reader none 0 t).flatMap fun
    | .inl c => [c]
    | .inr new => new

end Restage.Text
