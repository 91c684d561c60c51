import Restage.Conversion.Fault
import Restage.Conversion.Expression

/-!
# Rules

A rule recognises one shape of statement and gives its counterpart.  It looks at a text and a
context and either accepts, with the lines of the counterpart and the changed context, or declines.
Rules belong to families, and the families are tried in the order wait, action, sleep, assertion,
passthrough.
-/

namespace Restage.Conversion

/-- The families of rules, in the order in which they are tried. -/
inductive Family where
  | wait
  | action
  | sleep
  | assertion
  | passthrough
  deriving DecidableEq, Repr

def Family.name : Family → Text
  | wait => "wait"
  | action => "action"
  | sleep => "sleep"
  | assertion => "assertion"
  | passthrough => "passthrough"

/-- What a rule says about a statement: the lines of its counterpart if it accepts, and the context
afterwards. -/
structure Verdict where
  lines : Option (List Text)
  context : Context

namespace Verdict

def accept (line : Text) (ctx : Context) : Except Fault Verdict := .ok ⟨some [line], ctx⟩

def decline (ctx : Context) : Except Fault Verdict := .ok ⟨none, ctx⟩

/-- The line and the context of an acceptance; without them the rule declines. -/
def ofOption (ctx : Context) : Option (Text × Context) → Except Fault Verdict
  | some (line, after) => accept line after
  | none => decline ctx

end Verdict

/-- A rule. -/
structure Rule where
  name : Text
  family : Family
  apply : Text → Context → Except Fault Verdict

end Restage.Conversion
