import Restage.Json.Coerce
import Restage.Json.Writer
import Restage.Pattern.Action
import Restage.Pattern.Basic

/-!
# Actions and patterns as JSON

The pattern service is asked with a JSON list of actions, in which missing parts are left out, and
answers with JSON objects that describe patterns.
-/

namespace Restage

open Json (Value)

namespace Action

/-- The object that describes an action. -/
def toJson (a : Action) : Value :=
  let optional (key : Text) (part : Option Text) : List (Text × Value) :=
    (part.map fun t => (key, Value.string t)).toList
  .object (optional "action" (some a.action) ++ optional "target" a.target
    ++ optional "value" a.value)

/-- A part that is a text, or that is missing or null. -/
def optionalPart? (v : Value) (key : Text) : Option (Option Text) :=
  match v.member? key with
  | none | some .null => some none
  | some (.string t) => some (some t)
  | some _ => none

/-- The action that an object describes. -/
def ofJson? (v : Value) : Option Action := do
  let action ← (v.member? "action").bind Value.text?
  let target ← optionalPart? v "target"
  let value ← optionalPart? v "value"
  some { action, target, value }

def payload (actions : List Action) : Text := Json.write (.array (actions.map toJson))

end Action

namespace Pattern

/-- The pattern that an object describes: the name is needed, and the description and the
confidence have defaults. -/
def ofJson? (v : Value) : Option Pattern := do
  let name ← (v.member? "name").bind Value.text?
  let description ← match v.member? "description" with
    | none => some []
    | some d => d.text?
  let confidence ← match v.member? "confidence" with
    | none => some Confidence.zero
    | some c => c.asReal?.bind Confidence.ofNumber?
  some { name, description, confidence }

end Pattern

end Restage
