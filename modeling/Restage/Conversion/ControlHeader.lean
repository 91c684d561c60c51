import Restage.Conversion.Expression

/-!
# Control headers

The header of a conditional, a loop or an exception handler has a counterpart that opens a block.
Any other header has none.
-/

namespace Restage.Conversion

open Text Java

/-- Reads a word and the parenthesis after it. -/
def headed? (word t : Text) : Option Text :=
  (literal? word t).bind fun r => literal? "(" (blanks r)

/-- What precedes the parenthesis, the brace and the end of a header. -/
def beforeBlock? (t : Text) : Option Text :=
  (dropFinal? '\x7b' (dropFinalNewline t)).bind fun r => dropFinal? ')' (trimRight r)

def conditionKeyword? (t : Text) : Option (Text × Text) :=
  ((headed? "if" t).map ("if".toList, ·)).or <|
    (((literal? "else" t).bind someBlanks?).bind (headed? "if")).map ("else if".toList, ·)
      |>.or ((headed? "while" t).map ("while".toList, ·))

/-- The counterpart of `if`, `else if` and `while`. -/
def conditionHeader? (ctx : Context) (t : Text) : Option Text := do
  let (keyword, r) ← conditionKeyword? t
  let condition ← (beforeBlock? r).filter onOneLine
  some (keyword ++ " (" ++ expression ctx condition ++ ") \x7b")

/-- The variable and the items of a loop over items. -/
def itemLoop? (t : Text) : Option (Text × Text) := do
  let r ← headed? "for" t
  (afterFinal (blanks r)).findSome? fun start =>
    (typeEnds start).findSome? fun rest => do
      let (name, r) ← (someBlanks? rest).bind word?
      let r ← literal? ":" (blanks r)
      let listed ← (beforeBlock? r).filter fun i =>
        onOneLine (trimLeft i) && i.getLast?.any (· ≠ '\n')
      some (name, trim listed)

/-- What a counting loop has in its parentheses, from the name of its variable on. -/
def countingLoop? (t : Text) : Option Text := do
  let r ← headed? "for" t
  let (_, r) ← oneOf? ["int", "long"] (blanks r)
  let r ← someBlanks? r
  let (_, after) ← word? r
  let after ← literal? "=" (blanks after)
  let _ ← (beforeBlock? after).filter onOneLine
  beforeBlock? r

/-- Whether a character may stand in the parentheses of an exception handler. -/
def isHandled (c : Char) : Bool := isWord c || c == '.' || c == '|' || isBlank c

/-- The variable of an exception handler. -/
def caught? (t : Text) : Option Text := do
  let r ← headed? "catch" t
  let inside ← (beforeBlock? r).filter (·.all isHandled)
  let name := ((trimRight inside).reverse.takeWhile (!isBlank ·)).reverse
  let before := (trimRight inside).take ((trimRight inside).length - name.length)
  if isWordText name ∧ 2 ≤ before.length then some name else none

/-- The keyword of a block without parentheses. -/
def plainBlock? (t : Text) : Option Text := do
  let (keyword, r) ← oneOf? ["else", "try", "finally"] t
  let r ← literal? "\x7b" (blanks r)
  if atEnd r then some keyword else none

/-- The counterpart of a header, and the context in its block. -/
def controlHeader? (ctx : Context) (t : Text) : Option (Text × Context) :=
  match conditionHeader? ctx t with
  | some header => some (header, ctx)
  | none =>
    match itemLoop? t with
    | some (name, listed) =>
      let ctx := ctx.declare name []
      some ("for (const " ++ name ++ " of " ++ expression ctx listed ++ ") \x7b", ctx)
    | none =>
      let plain : Option Text :=
        ((countingLoop? t).map fun (inside : Text) => "for (let " ++ inside ++ ") \x7b").or <|
          ((caught? t).map fun (name : Text) => "catch (" ++ name ++ ") \x7b").or <|
            (plainBlock? t).map fun (keyword : Text) => keyword ++ " \x7b"
      plain.map (·, ctx)

end Restage.Conversion
