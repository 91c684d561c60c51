import Restage.Text.Blank

/-!
# Text

All readers and printers of the library work on `Text`, a list of characters, so that a reader is a
recursion on its input and a law about it is an induction.  A string literal stands for the text
that it spells.

The module holds the operations that do not depend on what the text means: trimming, cutting at a
character, joining, and exchanging one or two adjacent characters for others.
-/

namespace Restage

abbrev Text := List Char

/-- A string literal is the text that it spells. -/
instance : Coe String Text := ⟨String.toList⟩

namespace Text

/-! ## Blanks at the ends -/

def trimLeft (t : Text) : Text := t.dropWhile isBlank

def trimRight (t : Text) : Text := (t.reverse.dropWhile isBlank).reverse

/-- The text without the blanks at either end. -/
def trim (t : Text) : Text := trimRight (trimLeft t)

theorem length_trim_le (t : Text) : (trim t).length ≤ t.length := by
  have hl : (trimLeft t).length ≤ t.length := (List.dropWhile_sublist _).length_le
  have hr : (trimRight (trimLeft t)).length ≤ (trimLeft t).length := by
    have h := (List.dropWhile_sublist isBlank (l := (trimLeft t).reverse)).length_le
    simpa [trimRight] using h
  exact Nat.le_trans hr hl

def allBlank (t : Text) : Bool := t.all isBlank

/-- The text without the trailing characters that satisfy `p`. -/
def dropEnd (p : Char → Bool) (t : Text) : Text := (t.reverse.dropWhile p).reverse

/-! ## Parts of a text -/

def join (sep : Text) (parts : List Text) : Text := List.intercalate sep parts

/-- The parts of a text between the occurrences of `sep`; one more than there are occurrences. -/
def parts (sep : Char) : Text → List Text
  | [] => [[]]
  | c :: r =>
    if c = sep then [] :: parts sep r
    else match parts sep r with
      | [] => [[c]]
      | p :: ps => (c :: p) :: ps

/-- The words of a text: its maximal runs without blanks.  `word` is the word being read,
backwards. -/
def wordsFrom (word : Text) : Text → List Text
  | [] => if word.isEmpty then [] else [word.reverse]
  | c :: r =>
    if isBlank c then
      if word.isEmpty then wordsFrom [] r else word.reverse :: wordsFrom [] r
    else wordsFrom (c :: word) r

/-- The words of a text: its maximal runs without blanks. -/
def words (t : Text) : List Text := wordsFrom [] t

/-- What follows the last occurrence of `c`, or the whole text if there is none. -/
def afterLast (c : Char) (t : Text) : Text := (t.reverse.takeWhile (· ≠ c)).reverse

/-- What precedes the last occurrence of `c`, if there is one. -/
def beforeLast? (c : Char) (t : Text) : Option Text :=
  match t.reverse.dropWhile (· ≠ c) with
  | [] => none
  | _ :: r => some r.reverse

/-- What stands before and after the first occurrence of `c`, if there is one. -/
def cutFirst? (c : Char) (t : Text) : Option (Text × Text) :=
  match t.dropWhile (· ≠ c) with
  | [] => none
  | _ :: r => some (t.takeWhile (· ≠ c), r)

/-- Every way to cut a text around an occurrence of `c`, from the first occurrence to the last. -/
def cuts (c : Char) : Text → List (Text × Text)
  | [] => []
  | d :: r =>
    let later := (cuts c r).map fun (before, after) => (d :: before, after)
    if d = c then ([], r) :: later else later

/-- The suffixes of a text, from the whole text to the empty one. -/
def suffixes : Text → List Text
  | [] => [[]]
  | c :: r => (c :: r) :: suffixes r

def occursIn (part t : Text) : Bool := (suffixes t).any part.isPrefixOf

def startsWith (start t : Text) : Bool := start.isPrefixOf t

def endsWith (ending t : Text) : Bool := ending.isSuffixOf t

/-- Whether a text comes before another one: by the code points of their characters. -/
def precedes (s t : Text) : Bool := s.lex t fun c d => decide (c.toNat < d.toNat)

/-- The text before the final character, if that character is `c`. -/
def dropFinal? (c : Char) (t : Text) : Option Text :=
  if t.getLast? = some c then some t.dropLast else none

def occurrences (c : Char) (t : Text) : Nat := t.count c

def consumed (whole rest : Text) : Text := whole.take (whole.length - rest.length)

/-! ## Exchanging characters -/

def exchange (c : Char) (new : Text) (t : Text) : Text :=
  t.flatMap fun d => if d = c then new else [d]

/-- Every pair of neighbours `a b` exchanged for `new`, from left to right, no character counted
twice. -/
def exchangePair (a b : Char) (new : Text) : Text → Text
  | x :: y :: r => if x = a ∧ y = b then new ++ exchangePair a b new r
      else x :: exchangePair a b new (y :: r)
  | r => r

/-! ## Decimal numerals -/

/-- The decimal numeral of a natural number. -/
def ofNat (n : Nat) : Text := Nat.toDigits 10 n

/-- The decimal numeral of an integer, with a leading minus sign below zero. -/
def ofInt (n : Int) : Text :=
  if n < 0 then '-' :: ofNat n.natAbs else ofNat n.natAbs

/-- The text moved right by blanks until it is at least `width` characters long. -/
def padLeft (width : Nat) (t : Text) : Text := List.replicate (width - t.length) ' ' ++ t

end Text

end Restage
