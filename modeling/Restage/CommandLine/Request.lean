import Restage.CommandLine.Switch
import Restage.CommandLine.Usage
import Restage.Settings.Basic

/-!
# Requests

What a command line asks for.  The words before the command are switches of the program; the command
and all words after it belong to the command.  Words that belong nowhere are collected and refused
at the end.
-/

namespace Restage.CommandLine

open Text

/-- Why a command line makes no request. -/
inductive Stop where
  | help (topic : Topic)
  | version
  | misuse (topic : Topic) (message : Text)
  deriving DecidableEq, Repr

/-- What is to be converted, and how. -/
structure Request where
  input : Option Text := none
  output : Option Text := none
  diagnostics : Bool := false
  noProjectContext : Bool := false
  logFormat : Option LogFormat := none
  logLevel : Option Text := none
  json : Bool := false
  deriving DecidableEq, Repr

/-! ## The command -/

/-- The switches of the command. -/
inductive ConvertSwitch where
  | help
  | diagnostics
  | noProjectContext
  | logFormat
  | logLevel
  | json
  deriving DecidableEq, Repr

def convertSwitches : List (Switch ConvertSwitch) :=
  [⟨["-h", "--help"], .help, false⟩, ⟨["--diagnostics"], .diagnostics, false⟩,
   ⟨["--no-project-context"], .noProjectContext, false⟩, ⟨["--log-format"], .logFormat, true⟩,
   ⟨["--log-level"], .logLevel, true⟩, ⟨["--json"], .json, false⟩]

/-- How far the input and output paths have been read.  They stand in one run of values; a switch
after the start of the run ends it. -/
inductive Progress where
  | atInput
  | atOutput
  | afterOutput
  | finished
  deriving DecidableEq, Repr

/-- The state of reading the words of the command. -/
structure Reading where
  request : Request := {}
  progress : Progress := .atInput
  /-- The switch whose value comes next. -/
  waiting : Option (Switch ConvertSwitch) := none
  /-- The words that belong nowhere. -/
  extra : List Text := []

namespace Reading

def refuse {β : Type} (message : Text) : Except Stop β := .error (.misuse .convert message)

/-- The log format that a word names. -/
def logFormat (s : Switch ConvertSwitch) (v : Text) : Except Stop LogFormat :=
  match [LogFormat.json, LogFormat.console].find? (·.name = v) with
  | some f => .ok f
  | none =>
    refuse (s.complaint
      ("invalid choice: " ++ quoted v ++ " (choose from 'json', 'console')"))

def enter (r : Reading) (s : Switch ConvertSwitch) (v : Text) : Except Stop Reading :=
  match s.meaning with
  | .help => .error (.help .convert)
  | .diagnostics => .ok { r with request := { r.request with diagnostics := true } }
  | .noProjectContext => .ok { r with request := { r.request with noProjectContext := true } }
  | .json => .ok { r with request := { r.request with json := true } }
  | .logLevel => .ok { r with request := { r.request with logLevel := some v } }
  | .logFormat => do
    let f ← logFormat s v
    .ok { r with request := { r.request with logFormat := some f } }

/-- Takes a switch, or waits for its value. -/
def takeSwitch (r : Reading) (found : Switch ConvertSwitch × Option Text) : Except Stop Reading :=
  match found with
  | (s, some v) => r.enter s v
  | (s, none) => if s.takesValue then .ok { r with waiting := some s } else r.enter s []

def missingValue (s : Switch ConvertSwitch) : Text := s.complaint "expected one argument"

/-- Takes a value: that of the switch before it, the input, the output, or a word too many.  An
output that is `--` counts as none. -/
def takeValue (r : Reading) (v : Text) : Except Stop Reading :=
  match r.waiting with
  | some s => { r with waiting := none }.enter s v
  | none =>
    match r.progress with
    | .atInput =>
      .ok { r with request := { r.request with input := some v }, progress := .atOutput }
    | .atOutput =>
      let output := if v = "--".toList then none else some v
      .ok { r with request := { r.request with output }, progress := .afterOutput }
    | .afterOutput | .finished => .ok { r with extra := r.extra ++ [v], progress := .finished }

def takeSeparator (r : Reading) : Except Stop Reading :=
  match r.progress with
  | .finished => .ok { r with extra := r.extra ++ ["--".toList] }
  | _ => .ok r

/-- A switch ends the run of paths, if it has started. -/
def endRun (r : Reading) : Reading :=
  match r.progress with
  | .atInput => r
  | _ => { r with progress := .finished }

/-- Takes a word.  A switch that waits for its value takes a value only. -/
def take (r : Reading) (word : Word ConvertSwitch) : Except Stop Reading :=
  match word, r.waiting with
  | .value v, _ => r.takeValue v
  | _, some s => refuse (missingValue s)
  | .separator, none => r.takeSeparator
  | .unknown t, none => .ok { r.endRun with extra := r.extra ++ [t] }
  | .switch s spelling carried, none =>
    match expand convertSwitches s spelling carried with
    | .error message => refuse message
    | .ok found => found.foldlM takeSwitch r.endRun

def finish (r : Reading) : Except Stop (Request × List Text) :=
  match r.waiting with
  | some s => refuse (missingValue s)
  | none => .ok (r.request, r.extra)

end Reading

/-- Reads the words of the command: the request, and the words that belong nowhere. -/
def readConvert (args : List Text) : Except Stop (Request × List Text) := do
  let words ← (readWords convertSwitches args).mapError (.misuse .convert)
  let r ← words.foldlM (fun r w => Reading.take r w.2) {}
  r.finish

/-! ## The program -/

/-- The switches of the program. -/
inductive ProgramSwitch where
  | help
  | version
  deriving DecidableEq, Repr

def programSwitches : List (Switch ProgramSwitch) :=
  [⟨["-h", "--help"], .help, false⟩, ⟨["--version"], .version, false⟩]

def ProgramSwitch.stop : ProgramSwitch → Stop
  | help => .help .program
  | version => .version

/-- What the first switch of a word does. -/
def programStop (s : Switch ProgramSwitch) (spelling : Text) (carried : Option Text) : Stop :=
  match expand programSwitches s spelling carried with
  | .error message => .misuse .program message
  | .ok ((first, _) :: _) => first.meaning.stop
  | .ok [] => s.meaning.stop

/-- The words before the command that belong nowhere, and the command with the words after it. -/
def readProgram (extra : List Text) : List (Text × Word ProgramSwitch) →
    Except Stop (List Text × List Text)
  | (_, .switch s spelling carried) :: _ => .error (programStop s spelling carried)
  | (t, .unknown _) :: rest => readProgram (extra ++ [t]) rest
  | [(t, .separator)] => .ok (extra ++ [t], [])
  | words => .ok (extra, words.map (·.1))

/-- Refuses words that belong nowhere. -/
def refuseExtra (extra : List Text) : Except Stop Unit :=
  if extra.isEmpty then .ok ()
  else .error (.misuse .program ("unrecognized arguments: " ++ join " " extra))

/-- The request that a command line makes, if it names the command. -/
def request? (args : List Text) : Except Stop (Option Request) := do
  let words ← (readWords programSwitches args).mapError (.misuse .program)
  let (before, command) ← readProgram [] words
  match command with
  | [] =>
    refuseExtra before
    .ok none
  | name :: rest =>
    if name = "convert".toList then
      let (request, after) ← readConvert rest
      refuseExtra (before ++ after)
      .ok (some request)
    else
      .error (.misuse .program
        ("argument command: invalid choice: " ++ quoted name ++ " (choose from 'convert')"))

end Restage.CommandLine
