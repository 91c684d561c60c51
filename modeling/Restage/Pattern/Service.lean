import Restage.Json.Reader
import Restage.Pattern.Json
import Restage.Pattern.Recognizer

/-!
# The pattern service

The service answers a list of actions with JSON. Its answers are kept in a cache, by the text that
was asked, for a limited time.  A call that fails is tried again, three times in all, with a pause
between the tries.

A malformed answer counts as no pattern and is not kept; an answer without patterns is kept.
-/

namespace Restage

open Json (Value)

/-- The fixed properties of the service. -/
structure Service where
  model : Text
  maxTokens : Int
  /-- How long an answer is kept, in seconds. -/
  ttl : Int
  deriving DecidableEq, Repr

namespace Service

/-- How one call of the service ends. -/
inductive Call where
  | failed (message : Text)
  | answered (content : Option Text)
  deriving DecidableEq, Repr

/-- Why the service gives no answer. -/
inductive Error where
  /-- The last try failed. -/
  | failed (message : Text)
  /-- A whole number in the answer has too many digits. -/
  | tooManyDigits (count : Nat)
  deriving DecidableEq, Repr

/-! ## Answers -/

/-- The values that an answer lists.  What holds no values lists none; a text or an object that is
not empty lists values that describe no pattern. -/
def listed? : Value → Option (List Value)
  | .array items => some items
  | .string [] => some []
  | .object [] => some []
  | _ => none

def listing : Value → Value
  | .object members => (Table.get? members "patterns").getD (.array [])
  | v => v

def patterns? (v : Value) : Option (List Pattern) :=
  (listed? (listing v)).bind fun items => items.mapM Pattern.ofJson?

/-- Reads an answer: its patterns, or nothing if it is malformed. -/
def readAnswer (content : Text) : Except Error (Option (List Pattern)) :=
  match Json.read content with
  | .ok v => .ok (patterns? v)
  | .error .malformed => .ok none
  | .error (.tooManyDigits count) => .error (.tooManyDigits count)

/-! ## Tries -/

def maxTries : Nat := 3

/-- The pause between two tries, in seconds. -/
def pause : Nat := 2

/-- Calls until a call is answered or no try is left: the content or the last failure, and the
number of calls.  `call` gives the outcome of each call by its number, and `made` counts those made
before. -/
def tryFrom (call : Nat → Call) (made : Nat) : Nat → Except Text Text × Nat
  | 0 => (.error [], made)
  | left + 1 =>
    match call made with
    | .answered content => (.ok (content.getD []), made + 1)
    | .failed message =>
      if left = 0 then (.error message, made + 1) else tryFrom call (made + 1) left

def request (call : Nat → Call) : Except Text Text × Nat := tryFrom call 0 maxTries

def pauses (calls : Nat) : List Nat := List.replicate (calls - 1) pause

/-! ## The cache -/

/-- A kept answer and the time at which it was stored, in microseconds. -/
structure Entry where
  patterns : List Pattern
  storedAt : Int
  deriving DecidableEq, Repr

abbrev Cache := Table Entry

/-- Whether an answer may still be used. -/
def Entry.isFresh (e : Entry) (ttl now : Int) : Bool := now - e.storedAt < ttl * 1000000

/-- The outcome of asking the service. -/
structure Outcome where
  result : Except Error (List Pattern)
  /-- The number of calls made. -/
  calls : Nat
  cache : Cache

/-- The outcome of calling the service, given the cache without an entry for what is asked and the
time at which an answer is stored. -/
def outcomeOf (cache : Cache) (payload : Text) (answered : Int) : Except Text Text × Nat → Outcome
  | (.error message, calls) => ⟨.error (.failed message), calls, cache⟩
  | (.ok content, calls) =>
    match readAnswer content with
    | .error e => ⟨.error e, calls, cache⟩
    | .ok none => ⟨.ok [], calls, cache⟩
    | .ok (some patterns) => ⟨.ok patterns, calls, cache.put payload ⟨patterns, answered⟩⟩

/-- Asks for the patterns of a list of actions.  The cache is looked at when it is asked, `now`, and
an answer is stored when it has come, `answered`. -/
def recognize (s : Service) (cache : Cache) (now : Int) (call : Nat → Call)
    (actions : List Action) (answered : Int := now) : Outcome :=
  let payload := Action.payload actions
  let ask := outcomeOf (cache.filter (·.1 ≠ payload)) payload answered (request call)
  match cache.get? payload with
  | some entry => if entry.isFresh s.ttl now then ⟨.ok entry.patterns, 0, cache⟩ else ask
  | none => ask

/-- Asks for patterns without failing: a failure gives none, and the most confident comes first. -/
def consult (s : Service) (cache : Cache) (now : Int) (call : Nat → Call) (actions : List Action)
    (answered : Int := now) : Outcome :=
  if actions.isEmpty then ⟨.ok [], 0, cache⟩
  else
    let outcome := s.recognize cache now call actions answered
    match outcome.result with
    | .ok patterns => { outcome with result := .ok (ranked (patterns.map some)) }
    | .error _ => { outcome with result := .ok [] }

def question (actions : List Action) : Text := "Actions:\n" ++ Action.payload actions

end Service

end Restage
