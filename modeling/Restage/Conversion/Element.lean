import Restage.Conversion.Context
import Restage.Java.Call
import Restage.Locator.Call
import Restage.Locator.Reader

/-!
# Element references

A source expression refers to an element by the name of an element field, by a search on the driver,
by a `By` value or by constructing an element.  Each has a counterpart on the page; any other
expression is no element.
-/

namespace Restage.Conversion

open Text Java

/-! ## Shapes -/

/-- Reads a reference to the driver. -/
def driver? (t : Text) : Option Text :=
  let r := (literal? "this." t).getD t
  (literal? "getDriver()" r).or (literal? "driver" r)

/-- The field that an expression `name` or `this.name` names. -/
def accessorName? (t : Text) : Option Text :=
  let bare := (literal? "this." t).getD t
  if isName bare then some bare else if isName t then some t else none

/-- Reads `By.` and a method, and an opening parenthesis. -/
def byMethod? (t : Text) : Option (Text × Text) := do
  let (method, r) ← (literal? "By." t).bind word?
  let r ← literal? "(" r
  some (method, r)

def beforeClose? (t : Text) : Option Text := (dropFinal? ')' t).filter onOneLine

/-- The method and argument of an expression `driver.findElement(By.method(argument))`. -/
def searchOnDriver? (t : Text) : Option (Text × Text) := do
  let r ← (driver? t).bind (literal? ".findElement(")
  let (method, r) ← byMethod? (blanks r)
  let r ← dropFinal? ')' r
  let argument ← beforeClose? (trimRight r)
  some (method, argument)

/-- The method and argument of an expression `By.method(argument)`. -/
def byValue? (t : Text) : Option (Text × Text) := do
  let (method, r) ← byMethod? t
  let argument ← beforeClose? r
  some (method, argument)

/-- The arguments of an expression that constructs an element. -/
def newElement? (t : Text) : Option Text := do
  let r ← (literal? "new" t).bind someBlanks?
  let (_, r) ← calledName? ["QAFExtendedWebElement", "QAFWebElement", "QAFWebComponent"] r
  beforeClose? r

/-- A string literal followed by `+ name`: the literal and the name. -/
def trailingName? (t : Text) : Option (Text × Text) := do
  let (literal, r) ← string? t
  let r ← literal? "+" (blanks r)
  let (name, r) ← name? (blanks r)
  if r.isEmpty then some (literal, name) else none

/-! ## Counterparts -/

/-- The content of a locator argument.  A name in scope that is added at the end is kept for the
printer to make a slot of. -/
def locatorArgument? (ctx : Context) (argument : Text) : Option Text :=
  (unquote? argument).or do
    let (literal, name) ← trailingName? (trim argument)
    if ctx.scope.contains name then (unquote? literal).map (· ++ "\" + " ++ name) else none

/-- The counterpart of a search by a `By` method. -/
def byCall? (ctx : Context) (method argument : Text) : Option Text :=
  (locatorArgument? ctx argument).map fun value =>
    ctx.pageRef ++ "." ++ (Locator.Descriptor.ofToken method value).call ctx.scope

/-- The counterpart of constructing an element. -/
def newElementCall? (ctx : Context) (arguments : Text) : Option Text := do
  let first ← (splitArguments arguments).head?
  let value ← locatorArgument? ctx first
  some (ctx.pageRef ++ "." ++ (Locator.parse value).call ctx.scope)

/-- The counterpart of an element field. -/
def accessorCall? (ctx : Context) (name : Text) : Option Text :=
  if ctx.accessors.contains name then
    ctx.selfRef.map fun self => "(await " ++ self ++ "." ++ name ++ "())"
  else none

/-- The counterpart of an element reference. -/
def element? (ctx : Context) (expression : Text) : Option Text :=
  let t := trim expression
  match accessorName? t with
  | some name => accessorCall? ctx name
  | none =>
    match (searchOnDriver? t).or (byValue? t) with
    | some (method, argument) => byCall? ctx method argument
    | none => (newElement? t).bind (newElementCall? ctx)

/-- The name under which actions on an element are recorded. -/
def elementName (expression : Text) : Text :=
  (accessorName? (trim expression)).getD (trim expression)

end Restage.Conversion
