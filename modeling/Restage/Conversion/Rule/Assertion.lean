import Restage.Conversion.Rule.Basic

/-!
# Assertions

An assertion compares two values or tests one; an element assertion tests the state of an element.
Names that start with `verify` are soft: the test goes on when they fail.
-/

namespace Restage.Conversion

open Text Java

def expectation (soft : Bool) : Text := if soft then "expect.soft" else "expect"

/-! ## Assertions about values -/

/-- What an assertion says about its arguments. -/
inductive Claim where
  | equals
  | notEquals
  | isTrue
  | isFalse
  | isNull
  | isNotNull
  deriving DecidableEq, Repr

def claims : List (Text × Claim) :=
  [("Equals", .equals), ("NotEquals", .notEquals), ("True", .isTrue), ("False", .isFalse),
   ("Null", .isNull), ("NotNull", .isNotNull)]

def assertionClasses : List Text :=
  ["Assert", "Assertions", "Validator", "SoftAssert", "softAssert"]

/-- An assertion: whether it is soft, what it says, and about what. -/
structure Assertion where
  soft : Bool
  claim : Claim
  arguments : Text
  deriving DecidableEq, Repr

/-- Reads `assert` or `verify`: whether it is the soft one. -/
def softness? (t : Text) : Option (Bool × Text) :=
  ((literal? "assert" t).map (false, ·)).or ((literal? "verify" t).map (true, ·))

def assertion? (t : Text) : Option Assertion := do
  let r := (assertionClasses.findSome? fun c => literal? (c ++ ".") t).getD t
  let (soft, r) ← softness? r
  let (claim, r) ← claims.findSome? fun (ending, claim) =>
    (literal? (ending ++ "(") r).map (claim, ·)
  let arguments ← callArguments? r
  some { soft, claim, arguments }

/-- The element whose visibility a condition reads. -/
def visibilityRead? (t : Text) : Option Text :=
  (([".isDisplayed()", ".isVisible()", ".isPresent()"] : List Text).findSome? fun ending =>
    if endsWith ending t then some (t.take (t.length - ending.length)) else none).filter
      fun target => !target.isEmpty && onOneLine target

def valueMatcher : Claim → Text
  | .isTrue => "toBeTruthy()"
  | .isFalse => "toBeFalsy()"
  | .isNull => "toBeNull()"
  | .isNotNull => "not.toBeNull()"
  | .equals | .notEquals => "toBe()"

/-- The counterpart of an assertion about two values. -/
def comparison? (ctx : Context) (soft negated : Bool) : List Text → Option (Text × Context)
  | actual :: expected :: rest =>
    let actual := expression ctx actual
    let expected := expression ctx expected
    let message : Text := (rest.head?.map fun (m : Text) => ", " ++ m).getD []
    let negation : Text := if negated then ".not" else []
    some (expectation soft ++ "(" ++ actual ++ message ++ ")" ++ negation ++ ".toBe(" ++ expected
      ++ ");", ctx.record "assert" none (some expected))
  | _ => none

/-- The counterpart of an assertion that an element is visible or hidden. -/
def visibility? (ctx : Context) (soft : Bool) (claim : Claim) (condition message : Text) :
    Option (Text × Context) := do
  let matcher : Text ← match claim with
    | .isTrue => some "toBeVisible"
    | .isFalse => some "toBeHidden"
    | _ => none
  let target ← visibilityRead? condition
  let element ← element? ctx target
  some ("await " ++ expectation soft ++ "(" ++ element ++ message ++ ")." ++ matcher ++ "();",
    ctx.record "assert" (some (elementName target)) (some matcher))

/-- The counterpart of an assertion about one value. -/
def valueTest? (ctx : Context) (soft : Bool) (claim : Claim) :
    List Text → Option (Text × Context)
  | [] => none
  | condition :: rest =>
    let message : Text := (rest.head?.map fun (m : Text) => ", " ++ m).getD []
    (visibility? ctx soft claim condition message).or <|
      some (expectation soft ++ "(" ++ expression ctx condition ++ message ++ ")."
        ++ valueMatcher claim ++ ";", ctx.record "assert" none (some (valueMatcher claim)))

def assertion (t : Text) (ctx : Context) : Except Fault Verdict :=
  Verdict.ofOption ctx do
    let a ← assertion? t
    let arguments := splitArguments a.arguments
    match a.claim with
    | .equals => comparison? ctx a.soft false arguments
    | .notEquals => comparison? ctx a.soft true arguments
    | claim => valueTest? ctx a.soft claim arguments

/-! ## Assertions about elements -/

def elementMatchers : List (Text × Text) :=
  [("Visible", "toBeVisible"), ("NotVisible", "toBeHidden"), ("Present", "toBeAttached"),
   ("NotPresent", "not.toBeAttached"), ("Text", "toHaveText"), ("Enabled", "toBeEnabled"),
   ("Disabled", "toBeDisabled")]

def elementAssertions : List Text :=
  (["assert", "verify"] : List Text).flatMap fun start => elementMatchers.map (start ++ ·.1)

def elementAssertion (t : Text) (ctx : Context) : Except Fault Verdict :=
  Verdict.ofOption ctx do
    let call ← receiverCall? elementAssertions callArguments? t
    let element ← element? ctx call.receiver
    let (soft, ending) ← softness? call.method
    let matcher ← Table.get? elementMatchers ending
    let arguments := if matcher = "toHaveText".toList
      then (convertedArguments ctx call.arguments).take 1 else []
    some ("await " ++ expectation soft ++ "(" ++ element ++ ")." ++ matcher ++ "("
        ++ join ", " arguments ++ ");",
      ctx.record "assert" (some (elementName call.receiver)) (some matcher))

end Restage.Conversion
