import Restage.Pattern.Action
import Restage.Pattern.Basic

/-!
# Recognizers

A recognizer is asked for the patterns of a list of actions.  Its reply may depend on everything it
was asked before; it may fail, give nothing, or give a list in which other things stand between the
patterns.  `consult` makes a list of patterns of all these, the most confident first.  The one reply
that it fails on is something whose items cannot be listed.
-/

namespace Restage

/-- What a recognizer answers.  In a list, `none` stands for something that is no pattern. -/
inductive Reply where
  | failed (message : Text)
  | nothing
  | found (items : List (Option Pattern))
  /-- Something that is no list, or breaks off while it is listed; the message says why. -/
  | unlistable (message : Text)
  deriving DecidableEq, Repr

/-- A recognizer: its reply to a list of actions, given the lists it was asked about before. -/
structure Recognizer where
  reply : List (List Action) → List Action → Reply

/-- The patterns of a reply, the most confident first; equally confident ones keep their order. -/
def ranked (items : List (Option Pattern)) : List Pattern :=
  (items.filterMap id).mergeSort fun p q => decide (q.confidence.weight ≤ p.confidence.weight)

/-- The patterns of a reply, or why they cannot be listed. -/
def Reply.patterns : Reply → Except Text (List Pattern)
  | found items => .ok (ranked items)
  | failed _ | nothing => .ok []
  | unlistable message => .error message

/-- Asks a recognizer about some actions: the patterns or why there are none to list, and the lists
it has been asked about by then.  Without a recognizer or without actions nobody is asked. -/
def consult (recognizer : Option Recognizer) (asked : List (List Action)) (actions : List Action) :
    Except Text (List Pattern) × List (List Action) :=
  match recognizer, actions with
  | none, _ | _, [] => (.ok [], asked)
  | some r, actions => ((r.reply asked actions).patterns, asked ++ [actions])

end Restage
