import Restage.Conversion.Element

/-!
# Expressions

Inside a larger expression four things have a counterpart: reading the state of an element, the
title and the address of the page, and comparison by `equals`.  Each is exchanged wherever it
occurs, one after the other, and the rest of the expression stays as it is.
-/

namespace Restage.Conversion

open Text Java

/-- The reads of an element's state and their counterparts. -/
def reads : List (Text × Text) :=
  [("getText", "innerText"), ("isDisplayed", "isVisible"), ("isVisible", "isVisible"),
   ("isPresent", "isVisible"), ("isEnabled", "isEnabled"), ("isSelected", "isChecked"),
   ("getAttribute", "getAttribute")]

/-- A read of an element's state inside an expression. -/
structure Read where
  target : Text
  action : Text
  arguments : Text
  deriving DecidableEq, Repr

/-- Reads `.action(arguments)` without parentheses in the arguments. -/
def readEnd? (t : Text) : Option (Text × Text × Text) := do
  let r ← literal? "." t
  let (action, r) ← calledName? (reads.map (·.1)) r
  let (arguments, rest) ← flatArguments? r
  some (action, arguments, rest)

/-- Reads a search on the driver by a string literal. -/
def literalSearch? (t : Text) : Option Text := do
  let r ← (driver? t).bind (literal? ".findElement(")
  let (_, r) ← byMethod? (blanks r)
  let (_, r) ← string? r
  let r ← literal? ")" r
  literal? ")" (blanks r)

/-- The texts that may follow the target of a read, in order of preference. -/
def targetEnds (t : Text) : List Text :=
  (((literal? "this." t).bind name?).map (·.2)).toList ++ ((name? t).map (·.2)).toList
    ++ (literalSearch? t).toList

/-- Reads a read of an element's state; it does not start in the middle of a name. -/
def read? (before : Option Char) (t : Text) : Option (Read × Text) :=
  if before.any isDotted then none
  else (targetEnds t).findSome? fun r => do
    let (action, arguments, rest) ← readEnd? r
    some ({ target := consumed t r, action, arguments }, rest)

/-- The counterpart of a read; one of something that is no element stays as it is. -/
def convertRead? (ctx : Context) (before : Option Char) (t : Text) : Option (Text × Text) :=
  (read? before t).map fun (found, rest) =>
    match element? ctx found.target with
    | some element =>
      ("await " ++ element ++ "." ++ (Table.get? reads found.action).getD [] ++ "("
        ++ found.arguments ++ ")", rest)
    | none => (consumed t rest, rest)

/-- Reads a call on the driver without arguments and gives its counterpart. -/
def convertQuery? (query counterpart t : Text) : Option (Text × Text) :=
  ((driver? t).bind (literal? query)).map (counterpart, ·)

/-- Reads a comparison by `equals` and gives its counterpart. -/
def convertEquals? (t : Text) : Option (Text × Text) := do
  let r ← ((word? t).map fun (_, r) => (literal? "()" r).getD r).or ((string? t).map (·.2))
  let after ← literal? ".equals(" r
  let (argument, rest) ← flatArguments? after
  some (consumed t r ++ " === " ++ argument, rest)

def expression (ctx : Context) (t : Text) : Text :=
  let t := exchangeAll (convertRead? ctx) t
  let title := "await " ++ ctx.pageRef ++ ".title()"
  let address := ctx.pageRef ++ ".url()"
  let t := exchangeAll (fun _ => convertQuery? ".getTitle()" title) t
  let t := exchangeAll (fun _ => convertQuery? ".getCurrentUrl()" address) t
  exchangeAll (fun _ => convertEquals?) t

def convertedArguments (ctx : Context) (t : Text) : List Text :=
  (splitArguments t).map (expression ctx)

end Restage.Conversion
