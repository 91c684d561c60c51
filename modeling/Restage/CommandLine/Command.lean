import Restage.Batch.Report
import Restage.Batch.Run
import Restage.CommandLine.Request
import Restage.Settings.Reader

/-!
# Running a command line

The program as a function of its arguments, the environment and the files: the exit status, what it
prints, and the files afterwards.
-/

namespace Restage.CommandLine

open Text

/-- What is printed to the standard output. -/
inductive Printed where
  | text (t : Text)
  /-- The summary of a batch, as JSON. -/
  | summary (s : Batch.Summary)

/-- What a command line does: the exit status, what is printed, and the files afterwards. -/
structure Response where
  exit : Nat
  output : Printed := .text []
  errors : Text := []
  tree : FileTree

/-- Stops without a request. -/
def Stop.response (tree : FileTree) : Stop → Response
  | help topic => { exit := 0, output := .text topic.help, tree }
  | version => { exit := 0, output := .text CommandLine.version, tree }
  | misuse topic message => { exit := 1, errors := topic.misuse message, tree }

def errorResponse (tree : FileTree) (message : Text) : Response :=
  { exit := 1, errors := "ERROR: " ++ message ++ "\n", tree }

/-- The settings with what a request says about them. -/
def Request.adjust (r : Request) (s : Settings) : Settings :=
  { s with
    writeDiagnostics := s.writeDiagnostics || r.diagnostics
    useProjectContext := s.useProjectContext && !r.noProjectContext
    logFormat := r.logFormat.getD s.logFormat
    logLevel := (r.logLevel.filter (!·.isEmpty)).getD s.logLevel }

def environmentFile (tree : FileTree) : List (Text × Text) :=
  match (tree.read (Path.parse ".env")).map Utf8.decode with
  | .ok (.ok t) => Settings.fileVariables (unifyNewlines t)
  | _ => []

/-- Does what a request asks for. -/
def Request.run (r : Request) (environment : List (Text × Text)) (tree : FileTree) :
    Except Batch.Error Response :=
  match r.input.filter (!·.isEmpty) with
  | none => .ok (errorResponse tree "missing input path")
  | some given =>
    let input := Path.parse given
    if (tree.look input).isNone then
      .ok (errorResponse tree ("input path does not exist: " ++ input.toText))
    else match Settings.ofSources [] environment (environmentFile tree) with
      | .error e => .ok (errorResponse tree e.message)
      | .ok settings => do
        let plan : Batch.Plan := { settings := r.adjust settings }
        let output := (r.output.filter (!·.isEmpty)).map Path.parse
        let (summary, world) ← plan.run input output { tree }
        .ok { exit := 0, output := if r.json then .summary summary else .text summary.text,
              tree := world.tree }

def run (args : List Text) (environment : List (Text × Text)) (tree : FileTree) :
    Except Batch.Error Response :=
  match request? args with
  | .error stop => .ok (stop.response tree)
  | .ok none => .ok { exit := 1, errors := Topic.help .program, tree }
  | .ok (some request) => request.run environment tree

end Restage.CommandLine
