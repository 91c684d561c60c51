import Restage.Conversion.Duration
import Restage.Conversion.Rule.Basic

/-!
# Waits and sleeps

An element is waited for until it reaches a state or until an expectation about it holds, with an
optional timeout; a driver wait names a condition and an element.  A sleep waits for a fixed time.
-/

namespace Restage.Conversion

open Text Java

/-! ## Waiting for an element -/

/-- What is waited for: a state of the element, or an expectation about it. -/
inductive Awaited where
  | state (name : Text)
  | expectation (matcher : Text)
  deriving DecidableEq, Repr

def elementWaits : List (Text × Awaited) :=
  [("waitForVisible", .state "visible"), ("waitForNotVisible", .state "hidden"),
   ("waitForPresent", .state "attached"), ("waitForNotPresent", .state "detached"),
   ("waitForEnabled", .expectation "toBeEnabled"), ("waitForDisabled", .expectation "toBeDisabled")]

/-- The line that waits for an element; an empty timeout is none. -/
def waitLine (element : Text) (awaited : Awaited) (timeout : Option Text) : Text :=
  let timeout := timeout.filter (!·.isEmpty)
  match awaited with
  | .expectation matcher =>
    let options : Text := (timeout.map fun (t : Text) => "\x7b timeout: " ++ t ++ " \x7d").getD []
    "await expect(" ++ element ++ ")." ++ matcher ++ "(" ++ options ++ ");"
  | .state name =>
    let limit : Text := (timeout.map fun (t : Text) => ", timeout: " ++ t).getD []
    "await " ++ element ++ ".waitFor(\x7b state: '" ++ name ++ "'" ++ limit ++ " \x7d);"

/-- The duration in a pair of parentheses; blanks are none. -/
def timeout? (t : Text) : Except Fault (Option Text) :=
  if allBlank t then .ok none else (duration t).map some

/-- Waits such as `field.waitForVisible(5000);`. -/
def elementWait (t : Text) (ctx : Context) : Except Fault Verdict :=
  match receiverCall? (elementWaits.map (·.1)) flatStatement? t with
  | none => Verdict.decline ctx
  | some call =>
    match element? ctx call.receiver, Table.get? elementWaits call.method with
    | some element, some awaited => do
      let timeout ← timeout? call.arguments
      Verdict.accept (waitLine element awaited timeout)
        (ctx.record "wait" (some (elementName call.receiver)) timeout)
    | _, _ => Verdict.decline ctx

/-! ## Driver waits -/

def conditions : List (Text × Text) :=
  [("visibilityOf", "visible"), ("visibilityOfElementLocated", "visible"),
   ("elementToBeClickable", "visible"), ("invisibilityOf", "hidden"),
   ("invisibilityOfElementLocated", "hidden"), ("presenceOfElementLocated", "attached")]

/-- The parts of a driver wait. -/
structure DriverWait where
  timeout : Text
  condition : Text
  argument : Text
  deriving DecidableEq, Repr

/-- Whether a character may stand in the driver argument of a driver wait. -/
def isDriverChar (c : Char) : Bool := isDotted c || isParenthesis c

/-- Whether a character may stand in the timeout of a driver wait. -/
def isTimeoutChar (c : Char) : Bool := !(c == ',' || isParenthesis c)

/-- Reads the end of the constructor of a driver wait: further arguments and the parenthesis. -/
def waitArgumentsEnd? (t : Text) : Option Text :=
  match t with
  | ',' :: r => (flatArguments? r).map (·.2)
  | ')' :: r => some r
  | _ => none

/-- The shape of a driver wait:
`new WebDriverWait(driver, timeout).until(ExpectedConditions.condition(argument));`. -/
def driverWait? (t : Text) : Option DriverWait := do
  let r ← (literal? "new" t).bind someBlanks?
  let r ← literal? "WebDriverWait(" r
  let (_, r) ← run? isDriverChar (blanks r)
  let r ← literal? "," (blanks r)
  let timeout ← someContent? (r.takeWhile isTimeoutChar)
  let r ← waitArgumentsEnd? (r.dropWhile isTimeoutChar)
  let r ← literal? ".until(" (blanks r)
  let r ← literal? "ExpectedConditions." (blanks r)
  let (condition, r) ← word? r
  let r ← literal? "(" r
  let r ← beforeCloseSemicolon? r
  let argument ← beforeClose? (trimRight r)
  some { timeout, condition, argument }

def driverWait (t : Text) (ctx : Context) : Except Fault Verdict :=
  match driverWait? t with
  | none => Verdict.decline ctx
  | some wait =>
    match Table.get? conditions wait.condition, element? ctx wait.argument with
    | some state, some element => do
      let timeout ← duration wait.timeout
      Verdict.accept (waitLine element (.state state) (some timeout))
        (ctx.record "wait" (some (elementName wait.argument)) (some timeout))
    | _, _ => Verdict.decline ctx

/-! ## Sleeps -/

def isSleep (callee : Text) : Bool :=
  (["Thread.sleep", "QAFTestBase.pause", "pause", "sleep"] : List Text).contains callee
  || (match dropSleep callee with
    | some receiver =>
      (receiver.all isWord && (endsWith "Util" receiver || endsWith "Utils" receiver))
      || ((literal? "TimeUnit." receiver).any isWordText)
    | none => false)
where
  /-- What precedes `.sleep` at the end of a callee. -/
  dropSleep (callee : Text) : Option Text :=
    if endsWith ".sleep" callee then some (callee.take (callee.length - 6)) else none

def sleepDuration? (t : Text) : Option Text := do
  let (callee, r) ← cutFirst? '(' t
  if isSleep callee then (flatStatement? r).bind someContent? else none

def sleep (t : Text) (ctx : Context) : Except Fault Verdict :=
  match sleepDuration? t with
  | none => Verdict.decline ctx
  | some given => do
    let duration ← duration given
    Verdict.accept ("await " ++ ctx.pageRef ++ ".waitForTimeout(" ++ duration ++ ");")
      (ctx.record "sleep" none (some duration))

end Restage.Conversion
