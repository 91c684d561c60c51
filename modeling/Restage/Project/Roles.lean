import Restage.Project.ClassInfo
import Restage.Text.Case

/-!
# Roles of a class

Each role of a class is computed from the record of that class alone, so the roles do not depend on
the order in which classes are read and computing them again gives the same answer.
-/

namespace Restage

open Text

namespace ClassInfo

/-- The names of the package of a class, in lower case. -/
def packageSegments (c : ClassInfo) : List Text :=
  ((parts '.' c.package).filter (!·.isEmpty)).map lower

def namedLike (c : ClassInfo) (endings : List Text) : Bool := endings.any (endsWith · c.name)

def packagedIn (c : ClassInfo) (segments : List Text) : Bool :=
  c.packageSegments.any segments.contains

/-- The calls that act on an element or ask for its state. -/
def elementCalls : List Text :=
  ["click", "sendKeys", "clear", "getText", "isDisplayed", "isEnabled", "isSelected", "submit",
   "waitForVisible", "waitForPresent", "verifyVisible", "assertVisible"]

def startsElementCall : Text → Bool
  | '.' :: r =>
    elementCalls.any fun w => ((literal? w (blanks r)).bind fun r => literal? "(" (blanks r)).isSome
  | _ => false

def actsOnElement (line : Text) : Bool := (suffixes line).any startsElementCall

/-- A page object is named for a page and has elements or acts on them. -/
def isPageObject (c : ClassInfo) : Bool :=
  (c.namedLike ["Page", "Screen", "View"]
    || c.packageSegments.any fun s => occursIn "page" s || occursIn "screen" s)
  && (c.fields.any (fun f => elementTypes.contains f.elementType || f.hasLocatorAnnotation)
    || c.methods.any fun m => m.rawBody.any actsOnElement)

/-- The exception types of the language and of the test frameworks. -/
def exceptionTypes : List Text :=
  ["Exception", "RuntimeException", "Throwable", "Error", "AssertionError",
   "IllegalStateException", "IllegalArgumentException", "WebDriverException",
   "NoSuchElementException", "TimeoutException", "AutomationError"]

def messageTypes : List Text := ["String", "Throwable", "Exception", "RuntimeException"]

/-- Whether a method is a constructor that passes one message or cause on. -/
def passesMessageOn (m : MethodInfo) : Bool :=
  m.isConstructor
  && (match m.parameters with
    | [p] => messageTypes.contains (afterLast '.' p.type)
    | _ => false)
  && m.rawBody.any fun line => startsWith "super(" (trim line)

/-- An exception is named for one, extends one, or has a constructor that passes a message on. -/
def isException (c : ClassInfo) : Bool :=
  c.namedLike ["Exception", "Error"]
  || (c.parent.filter (!·.isEmpty)).any (fun p => exceptionTypes.contains (afterLast '.' p))
  || c.methods.any passesMessageOn

/-- A step definition has steps, or is named or packaged for them. -/
def isStepDefinition (c : ClassInfo) : Bool :=
  c.methods.any (·.stepDescription.isSome)
  || c.namedLike ["Steps", "Step", "StepDefs", "StepDefinitions", "Stepdefs"]
  || c.packagedIn ["steps", "step", "stepdefs", "stepdefinitions", "glue"]

/-- A utility is named or packaged for one and more than half of its methods are static. -/
def isUtility (c : ClassInfo) : Bool :=
  (c.namedLike ["Util", "Utils", "Utility", "Utilities", "Helper", "Helpers"]
    || c.packagedIn ["util", "utils", "utility", "utilities", "helper", "helpers"])
  && c.properMethods.length < 2 * (c.properMethods.filter (·.isStatic)).length

/-- An element wrapper is named for an element or builds on an element type, and offers the three
calls that every element has. -/
def isElementWrapper (c : ClassInfo) : Bool :=
  let parents := ((c.parent.toList ++ c.interfaces).filter (!·.isEmpty)).map (afterLast '.')
  (c.namedLike ["Element"] || parents.any elementTypes.contains)
  && (["click", "sendKeys", "getText"] : List Text).all c.methodNames.contains

/-- The roles of a class, computed from its record. -/
def classify (c : ClassInfo) : Roles where
  isPageObject := c.isPageObject
  isException := c.isException
  isStepDefinition := c.isStepDefinition
  isUtility := c.isUtility
  isElementWrapper := c.isElementWrapper

def classified (c : ClassInfo) : ClassInfo := { c with roles := c.classify }

end ClassInfo

end Restage
