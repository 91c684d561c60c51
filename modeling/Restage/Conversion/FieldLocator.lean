import Restage.Java.Call
import Restage.Locator.Reader
import Restage.Project.ClassInfo

/-!
# Locators of fields

An element field has its locator in an annotation or in its initial value.
-/

namespace Restage.Conversion

open Text Java Locator

/-- The locator among the attributes of an annotation that name a way of searching. -/
def searchAttribute? (attributes : Table Text) : Option Descriptor :=
  attributes.findSome? fun (key, value) =>
    ((stringValue? value).map fun v => Descriptor.ofToken key v).filter (·.kind ≠ .unknown)

/-- What an annotation says about the locator of its field: nothing, or that there is this one or
none.  A whole locator goes before a way of searching with its value, and that before a way of
searching as an attribute. -/
def annotationLocator? (text : Text) : Option (Option Descriptor) :=
  if locatorAnnotations.contains (annotationName text) then
    let attributes := annotationAttributes text
    match attributes.get? "locator", attributes.get? "how", attributes.get? "using" with
    | some locator, _, _ =>
      some (((stringValue? locator).filter (!·.isEmpty)).map Locator.parse)
    | none, some how, some value =>
      some (some (Descriptor.ofToken (afterLast '.' how) ((stringValue? value).getD [])))
    | _, _, _ => (searchAttribute? attributes).map some
  else none

/-- The arguments of an initial value that constructs an object. -/
def constructedWith? (initial : Text) : Option Text := do
  let r ← (literal? "new" initial).bind someBlanks?
  let (_, r) ← run? isDotted r
  let r ← literal? "(" (blanks r)
  (dropFinal? ')' r).filter onOneLine

/-- The locator in an initial value: the first argument of a constructor. -/
def initialLocator? (initial : Text) : Option Descriptor := do
  let arguments ← constructedWith? (trim initial)
  let first ← (splitArguments arguments).head?
  let value ← stringValue? first
  if value.isEmpty then none else some (Locator.parse value)

def fieldLocator? (f : FieldInfo) : Option Descriptor :=
  match f.annotations.findSome? annotationLocator? with
  | some decided => decided
  | none => f.initial.bind initialLocator?

end Restage.Conversion
