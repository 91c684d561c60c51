import Restage.Java.Arguments
import Restage.Java.StringLiteral
import Restage.Java.TypeName

/-!
# Calls

Shapes of the calls that statements are made of.  A call on a receiver is found at the first dot
that one of the given method names and an opening parenthesis follow; `splitCall?` finds the
parenthesis that matches the last one of a call statement.
-/

namespace Restage.Java

open Text

/-! ## Calls on a receiver -/

/-- Reads one of the given names and an opening parenthesis. -/
def calledName? (names : List Text) (t : Text) : Option (Text × Text) :=
  names.findSome? fun name => (literal? (name ++ "(") t).map (name, ·)

/-- A call of a method on a receiver. -/
structure ReceiverCall where
  receiver : Text
  method : Text
  arguments : Text
  deriving DecidableEq, Repr

/-- Reads a receiver, a dot, one of the given names, an opening parenthesis and what `arguments?`
makes of the rest.  The receiver is the shortest possible one. -/
def receiverCall? (names : List Text) (arguments? : Text → Option Text) (t : Text) :
    Option ReceiverCall :=
  (cuts '.' t).findSome? fun (receiver, after) =>
    if receiver.isEmpty || !onOneLine receiver then none
    else do
      let (method, rest) ← calledName? names after
      let arguments ← arguments? rest
      some { receiver, method, arguments }

def isParenthesis (c : Char) : Bool := c == '(' || c == ')'

/-- Reads arguments without parentheses and the closing parenthesis. -/
def flatArguments? (t : Text) : Option (Text × Text) :=
  match t.dropWhile (!isParenthesis ·) with
  | ')' :: rest => some (t.takeWhile (!isParenthesis ·), rest)
  | _ => none

/-- Reads arguments without parentheses up to the end of the statement. -/
def flatStatement? (t : Text) : Option Text := do
  let (arguments, rest) ← flatArguments? t
  let rest ← literal? ";" (blanks rest)
  if atEnd rest then some arguments else none

/-- What a pair of parentheses holds when it is trimmed; blanks alone give the last of them. -/
def someContent? (t : Text) : Option Text :=
  if allBlank t then t.getLast?.map ([·]) else some (trim t)

/-! ## Matching parentheses from the right -/

/-- Cuts a reversed text, paired with its mask, at the opening parenthesis that is `depth` levels
out: what precedes it, and the text inside, which `inside` collects. -/
def cutOpening? (depth : Nat) (inside : Text) : List (Char × Char) → Option (Text × Text)
  | [] => none
  | (shown, c) :: r =>
    if shown = ')' then cutOpening? (depth + 1) (c :: inside) r
    else if shown = '(' then
      match depth with
      | 0 => some ((r.map (·.2)).reverse, inside)
      | d + 1 => cutOpening? d (c :: inside) r
    else cutOpening? depth (c :: inside) r

/-- The callee and the arguments of a call statement whose parentheses span to its end. -/
def splitCall? (t : Text) : Option (Text × Text) := do
  let body ← (dropFinal? ';' t).map trimRight
  match ((mask body).zip body).reverse with
  | (')', _) :: r => (cutOpening? 0 [] r).map fun (callee, arguments) => (trim callee, arguments)
  | _ => none

/-! ## Single statements -/

/-- Whether no top-level semicolon of a masked text is followed by more code. -/
def singleFrom (depth : Int) : Text → Bool
  | [] => true
  | c :: r =>
    if isOpening c then singleFrom (depth + 1) r
    else if isClosing c then singleFrom (depth - 1) r
    else if c = ';' ∧ depth = 0 ∧ !allBlank r then false
    else singleFrom depth r

def isSingle (t : Text) : Bool := singleFrom 0 (mask t)

/-! ## Literals and declarations of variables -/

/-- Whether a text is a number, with an optional sign, fraction and type suffix. -/
def isNumber (t : Text) : Bool :=
  let unsigned := (literal? "-" t).getD t
  match run? isDecimal unsigned with
  | none => false
  | some (_, rest) =>
    let rest := match rest with
      | '.' :: r => ((run? isDecimal r).map (·.2)).getD rest
      | _ => rest
    rest.isEmpty || (match rest with
      | [c] => ("lLdDfF".toList).contains c
      | _ => false)

def isString (t : Text) : Bool :=
  match string? t with
  | some (_, rest) => rest.isEmpty
  | none => false

/-- Whether a text is a literal: a string, a number, a truth value or null. -/
def isLiteral (t : Text) : Bool :=
  isString t || isNumber t || (["true", "false", "null"] : List Text).contains t

/-- A literal without the type suffix of a number. -/
def plainLiteral (t : Text) : Text :=
  match t.reverse with
  | s :: d :: _ => if ("lLdDfF".toList).contains s && d.isDigit then t.dropLast else t
  | _ => t

def afterFinal (t : Text) : List Text := (((literal? "final" t).bind someBlanks?).toList) ++ [t]

/-- Reads a type, a name and the equals sign of a declaration: the type, the name and the rest. -/
def declaredVariable? (accept : Text → Option Text) (t : Text) : Option (Text × Text × Text) :=
  (afterFinal t).findSome? fun start =>
    (typeEnds start).findSome? fun rest => do
      let (name, r) ← (someBlanks? rest).bind word?
      let r ← literal? "=" (blanks r)
      let r ← accept r
      some (consumed start rest, name, r)

end Restage.Java
