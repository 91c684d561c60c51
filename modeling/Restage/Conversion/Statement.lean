import Restage.Conversion.Rule.Assertion
import Restage.Conversion.Rule.ElementAction
import Restage.Conversion.Rule.Passthrough
import Restage.Conversion.Rule.Wait

/-!
# Statements

The rules in the order in which they are tried, and what becomes of a statement that none of them
accepts: inside a method it is kept as a comment to be done, elsewhere it is dropped, and in both
cases a diagnostic notes the line.
-/

namespace Restage.Conversion

open Text Java

def rules : List Rule :=
  [⟨"element_wait", .wait, elementWait⟩,
   ⟨"driver_wait", .wait, driverWait⟩,
   ⟨"element_action", .action, elementAction⟩,
   ⟨"sleep", .sleep, sleep⟩,
   ⟨"assertion", .assertion, assertion⟩,
   ⟨"element_assertion", .assertion, elementAssertion⟩,
   ⟨"log", .passthrough, log⟩,
   ⟨"navigate", .passthrough, navigate⟩,
   ⟨"history", .passthrough, history⟩,
   ⟨"new_page_object", .passthrough, newPageObject⟩,
   ⟨"chained_page_call", .passthrough, chainedPageCall⟩,
   ⟨"throw", .passthrough, throw⟩,
   ⟨"return", .passthrough, returns⟩,
   ⟨"literal_declaration", .passthrough, literalDeclaration⟩,
   ⟨"generic_call", .passthrough, genericCall⟩]

/-- The first rule that accepts a text, with the lines of the counterpart, and the context after
all the rules that were tried. -/
def applyRules (t : Text) (ctx : Context) :
    List Rule → Except Fault (Option (Rule × List Text) × Context)
  | [] => .ok (none, ctx)
  | rule :: rest => do
    let verdict ← rule.apply t ctx
    match verdict.lines with
    | some lines => .ok (some (rule, lines), verdict.context)
    | none => applyRules t verdict.context rest

def leftOver (line : Int) (t : Text) (ctx : Context) : List Text × Context :=
  if ctx.inMethod then (["// TODO: " ++ t], ctx.diagnose line "emitted as TODO" t)
  else ([], ctx.diagnose line "no pattern match" t)

/-- The lines that a statement at the given source line becomes. -/
def statement (line : Int) (text : Text) (ctx : Context) : Except Fault (List Text × Context) := do
  let t := trim text
  if isSingle t then
    match ← applyRules t ctx rules with
    | (some (_, lines), after) => .ok (lines, after)
    | (none, after) => .ok (leftOver line t after)
  else .ok (leftOver line t ctx)

end Restage.Conversion
