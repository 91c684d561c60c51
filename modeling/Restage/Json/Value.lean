import Restage.Number.Binary64
import Restage.Table

/-!
# JSON values

The values that a JSON document can hold.  Whole numbers and numbers with a fraction or exponent are
kept apart, because the settings and the pattern service treat them differently.  The members of an
object are a table: a key that occurs twice keeps its first place and its last value.
-/

namespace Restage.Json

/-- A JSON value. -/
inductive Value where
  | null
  | bool (b : Bool)
  | int (n : Int)
  | real (x : Binary64)
  | string (t : Text)
  | array (items : List Value)
  | object (members : List (Text × Value))
  deriving Repr

namespace Value

def text? : Value → Option Text
  | .string t => some t
  | _ => none

theorem text?_eq_some_iff {v : Value} {t : Text} : v.text? = some t ↔ v = .string t := by
  cases v <;> simp [text?]

def member? (v : Value) (key : Text) : Option Value :=
  match v with
  | .object members => Table.get? members key
  | _ => none

end Value

end Restage.Json
