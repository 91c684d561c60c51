import Restage.Locator.Basic
import Restage.TypeScript.Literal

/-!
# Locator calls

A locator is written as one call on a page, without the receiver: `locator('#submit')`,
`getByText('Next', { exact: false })` and so on.  The parameters in scope make slots of the
concatenation idioms in the value.
-/

namespace Restage.Locator

open Text TypeScript

/-- The attribute selector of a name.  A value without slots has its quotes and backslashes
escaped. -/
def nameSelector (params : List Text) (value : Text) : Text :=
  let value := if isDynamic params value then value
    else exchange '"' ['\\', '"'] (exchange '\\' ['\\', '\\'] value)
  "[name=\"" ++ value ++ "\"]"

def callWith (method : Text) (params : List Text) (value : Text) : Text :=
  method ++ "(" ++ literal params value ++ ")"

/-- The call that finds elements by role.  A colon divides the role from the accessible name. -/
def roleCall (params : List Text) (value : Text) : Text :=
  match cutFirst? ':' value with
  | some (role, name) =>
    "getByRole(" ++ literal params role ++ ", \x7b name: " ++ literal params name ++ " \x7d)"
  | none => callWith "getByRole" params value

def call (kind : Kind) (value : Text) (params : List Text := []) : Text :=
  match kind with
  | .xpath => "locator(" ++ literal params ("xpath=" ++ value) true ++ ")"
  | .id => callWith "locator" params ("#" ++ value)
  | .name => callWith "locator" params (nameSelector params value)
  | .linkText | .text => callWith "getByText" params value
  | .partialLinkText => "getByText(" ++ literal params value ++ ", \x7b exact: false \x7d)"
  | .className => callWith "locator" params ("." ++ value)
  | .role => roleCall params value
  | .label => callWith "getByLabel" params value
  | .placeholder => callWith "getByPlaceholder" params value
  | .alt => callWith "getByAltText" params value
  | .title => callWith "getByTitle" params value
  | .css | .tagName | .unknown => callWith "locator" params value

def Descriptor.call (d : Descriptor) (params : List Text := []) : Text :=
  Locator.call d.kind d.value params

end Restage.Locator
