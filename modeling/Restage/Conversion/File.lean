import Restage.Conversion.Walk.Step

/-!
# Conversion of a file

The walk over the statements of a document, and what it gives.
-/

namespace Restage.Conversion

open Text Java TypeScript

/-- What the conversion of a file gives. -/
structure Output where
  code : Text
  diagnostics : List Diagnostic := []
  classes : List ClassInfo := []
  patterns : Table (List Pattern) := []
  droppedClosers : Nat := 0
  /-- What the recognizer has been asked about. -/
  asked : List (List Action) := []
  deriving DecidableEq, Repr

/-- The report of the lines that were left out or commented out. -/
def Output.skippedReport (o : Output) : Text :=
  o.diagnostics.flatMap fun d => d.message ++ "\n"

/-- What is converted, and with what. -/
structure Task where
  document : Document
  project : Option Project := none
  module : Option Text := none
  baseImports : List Text := []
  recognizer : Option Recognizer := none
  /-- What the recognizer was asked about before. -/
  asked : List (List Action) := []

/-- What the recognizer has been asked about when a walk over some statements is over. -/
def Walk.questions (around : Surroundings) (w : Walk) : List Statement → List (List Action)
  | [] => w.asked
  | s :: rest =>
    match w.step around s with
    | .ok w => w.questions around rest
    | .error fault => w.asked ++ fault.questions

namespace Task

def classes (t : Task) : List ClassInfo := t.document.classes t.module

/-- What the walk depends on. -/
def surroundings (t : Task) : Surroundings where
  lookup := { project := t.project, classes := t.classes }
  recognizer := t.recognizer

def start (t : Task) : Walk where
  context := { project := t.project, module := t.module }
  sheet := { baseImports := t.baseImports }
  asked := t.asked

/-- The walk over all statements. -/
def walk (t : Task) : Except Fault Walk :=
  t.document.statements.foldlM (Walk.step t.surroundings) t.start

/-- What the recognizer has been asked about when the conversion is over, also if a fault ended
it. -/
def questions (t : Task) : List (List Action) :=
  t.start.questions t.surroundings t.document.statements

def finishedSheet (w : Walk) : Sheet := w.context.imports.foldl Sheet.addImport w.sheet

/-- Converts the document. -/
def run (t : Task) : Except Fault Output := do
  let w ← t.walk
  .ok { code := (finishedSheet w).render, diagnostics := w.context.diagnostics,
        classes := t.classes, patterns := w.patterns, droppedClosers := w.sheet.droppedClosers,
        asked := w.asked }

end Task

end Restage.Conversion
