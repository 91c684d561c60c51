import Restage.Text.CaseTable
import Restage.Text.Word

/-!
# Letter case

Lower case and title case of a text by the full case mappings: a character may become several, and a
capital sigma becomes a final one at the end of a word.  Title case begins every run of cased
characters with the title form of the first of them and continues it in lower case.
-/

namespace Restage.Text

/-- The code point that a mapping gives, if one of its runs holds the character. -/
def mapped? (runs : List CaseRun) (n : Nat) : Option Nat :=
  (runs.find? fun r => r.first ≤ n && n ≤ r.last && (n - r.first) % r.step == 0).map fun r =>
    ((n : Int) + r.shift).toNat

/-- Whether a character is a letter with case. -/
def isCased (c : Char) : Bool :=
  if c.toNat < 128 then c.isAlpha else inRanges casedRanges c.toNat

/-- Whether the search for a neighbouring letter passes over a character. -/
def isCaseIgnorable (c : Char) : Bool := inRanges caseIgnorableRanges c.toNat

/-- The lower-case form of a character on its own. -/
def lowerChar (c : Char) : Text :=
  if c.toNat < 128 then [c.toLower]
  else if c.toNat = 0x130 then ['i', Char.ofNat 0x307]
  else [((mapped? lowerRuns c.toNat).map Char.ofNat).getD c]

/-- The title-case form of a character. -/
def titleChar (c : Char) : Text :=
  if c.toNat < 128 then [c.toUpper]
  else match titleSequences.find? (·.1 = c.toNat) with
    | some (_, codes) => codes.map Char.ofNat
    | none => [((mapped? titleRuns c.toNat).map Char.ofNat).getD c]

/-- Whether the next character that is not passed over is a letter with case. -/
def nextIsCased (t : Text) : Bool := ((t.dropWhile isCaseIgnorable).head?.map isCased).getD false

/-- The lower-case form of a character between the given texts, the first one held backwards. A
capital sigma after a letter and before none becomes a final sigma. -/
def lowerBetween (before : Text) (c : Char) (after : Text) : Text :=
  if c.toNat = 0x3A3 then
    [Char.ofNat (if nextIsCased before && !nextIsCased after then 0x3C2 else 0x3C3)]
  else lowerChar c

/-- The lower-case form of a text that follows `before`, held backwards. -/
def lowerFrom (before : Text) : Text → Text
  | [] => []
  | c :: r => lowerBetween before c r ++ lowerFrom (c :: before) r

def lower (t : Text) : Text := lowerFrom [] t

/-- The title-case form of a text that follows `before`, held backwards. -/
def titleFrom (before : Text) : Text → Text
  | [] => []
  | c :: r =>
    (if (before.head?.map isCased).getD false then lowerBetween before c r else titleChar c)
      ++ titleFrom (c :: before) r

def title (t : Text) : Text := titleFrom [] t

end Restage.Text
