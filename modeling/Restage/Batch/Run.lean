import Restage.Batch.Basic
import Restage.Conversion.File
import Restage.Settings.Basic

/-!
# Running a batch

All files are read and analysed before the first one is converted.  A file that cannot be read,
converted or written is recorded, and the others go on.
-/

namespace Restage.Batch

open Text

/-- What a batch works on: the files, and what the recognizer has been asked about. -/
structure World where
  tree : FileTree
  asked : List (List Action) := []

/-- How a batch works. -/
structure Plan where
  settings : Settings
  recognizer : Option Recognizer := none

namespace Plan

/-! ## Paths -/

/-- Where the output goes if nothing is said: next to a directory, or beside a file. -/
def defaultOutput (plan : Plan) (tree : FileTree) (input : Path) : Except Path.Error Path :=
  if tree.isDirectory input then input.withName (input.name ++ plan.settings.outputDirSuffix)
  else .ok input.parent

/-- Whether a file below the input is a source file. -/
def isSource (plan : Plan) (input path : Path) : Bool :=
  (plan.settings.sourceExtensions.map lower).contains (lower path.suffix)
  && !((path.parts.drop input.parts.length).dropLast.any plan.settings.excludedDirs.contains)

def discover (plan : Plan) (tree : FileTree) (input : Path) : List Path :=
  if tree.isFile input then [input]
  else (tree.filesBelow input).filter (plan.isSource input)

def outputFor (plan : Plan) (source root output : Path) : Except Path.Error Path := do
  let below ← source.relativeTo root
  (output ++ below).withSuffix plan.settings.outputExtension

/-! ## Reading -/

/-- A file that has been read. -/
structure Source where
  path : Path
  document : Java.Document

/-- Reads a file; line ends are unified. -/
def readFile (encoding : Encoding) (tree : FileTree) (path : Path) : Except Failure Source :=
  match tree.read path with
  | .error error => .error (.unreadable path (.inaccessible error))
  | .ok bytes =>
    match encoding.decode bytes with
    | .error fault => .error (.unreadable path (.undecodable fault))
    | .ok t => .ok { path, document := Java.Document.ofText (unifyNewlines t) }

/-- The encoding of source files. -/
def encoding (plan : Plan) : Except Error Encoding :=
  match Encoding.ofName? plan.settings.sourceEncoding with
  | some e => .ok e
  | none => .error (.unknownEncoding plan.settings.sourceEncoding)

/-- Reads files: those that could be read, and the results of those that could not. -/
def readFiles (encoding : Encoding) (tree : FileTree) (paths : List Path) :
    List Source × List FileResult :=
  paths.foldr (fun path (sources, failed) =>
    match readFile encoding tree path with
    | .ok source => (source :: sources, failed)
    | .error failure => (sources, ⟨path, .error failure⟩ :: failed)) ([], [])

/-! ## Converting and writing -/

/-- Writes the output of a file, and on demand the numbered source and the report of skipped lines
beside it. -/
def writeOutput (plan : Plan) (target : Path) (source : Source) (output : Conversion.Output) :
    FileTree.Change Unit := do
  FileTree.ensureDirectories target.parent
  FileTree.write target (Utf8.encode output.code)
  if plan.settings.writeDiagnostics then
    let stem := match target.withSuffix [] with
      | .ok p => p.toText
      | .error _ => target.toText
    FileTree.write (Path.parse (stem ++ ".source.txt"))
      (Utf8.encode (source.document.numbered ++ "\n"))
    FileTree.write (Path.parse (stem ++ ".skipped.txt")) (Utf8.encode output.skippedReport)

/-- The task of converting a file. -/
def task (plan : Plan) (root : Path) (project : Option Project) (asked : List (List Action))
    (source : Source) : Except Path.Error Conversion.Task := do
  let module ← Module.ofPath source.path (some root)
  .ok { document := source.document, project, module := some module,
        baseImports := plan.settings.baseImports, recognizer := plan.recognizer, asked }

def convertFile (plan : Plan) (root outputRoot : Path) (project : Option Project) (w : World)
    (source : Source) : Except Failure Converted × World :=
  match plan.outputFor source.path root outputRoot, plan.task root project w.asked source with
  | .error e, _ | _, .error e => (.error (.noTarget e), w)
  | .ok target, .ok task =>
    match task.run with
    | .error fault => (.error (.unconverted fault), { w with asked := task.questions })
    | .ok output =>
      match (plan.writeOutput target source output).run w.tree with
      | (.ok (), tree) =>
        (.ok { output := target, diagnostics := output.diagnostics.length },
         { tree, asked := output.asked })
      | (.error e, tree) => (.error (.unwritable target e), { tree, asked := output.asked })

/-- Converts files one after the other. -/
def convertFiles (plan : Plan) (root outputRoot : Path) (project : Option Project) :
    List Source → World → List FileResult × World
  | [], w => ([], w)
  | source :: rest, w =>
    let (outcome, w) := plan.convertFile root outputRoot project w source
    let (results, w) := plan.convertFiles root outputRoot project rest w
    (⟨source.path, outcome⟩ :: results, w)

/-! ## The batch -/

/-- The project of the files, unless each file is to be converted on its own. -/
def analyse (plan : Plan) (root : Path) (sources : List Source) :
    Except Path.Error (Option Project) :=
  if plan.settings.useProjectContext ∧ !sources.isEmpty then
    (Project.ofFiles (sources.map fun s => { path := some s.path, document := s.document })
      (some root)).map some
  else .ok none

def inOrder (results : List FileResult) : List FileResult :=
  results.mergeSort fun a b => !precedes b.source.toText a.source.toText

/-- Converts the files at the given paths: what became of each, the number of classes that the
analysis found, and the world afterwards.  Without files no encoding is needed. -/
def convertAll (plan : Plan) (root outputRoot : Path) (paths : List Path) (w : World) :
    Except Error (List FileResult × Nat × World) := do
  let (sources, unread) ← if paths.isEmpty then .ok ([], [])
    else (plan.encoding).map fun e => readFiles e w.tree paths
  let project ← (plan.analyse root sources).mapError .path
  let (results, w) := plan.convertFiles root outputRoot project sources w
  .ok (inOrder (unread ++ results), (project.map (·.classes.length)).getD 0, w)

/-- Runs a batch on a file or directory. -/
def run (plan : Plan) (input : Path) (output : Option Path) (w : World) :
    Except Error (Summary × World) := do
  let outputRoot ← match output with
    | some p => .ok p
    | none => (plan.defaultOutput w.tree input).mapError .path
  let root := if w.tree.isDirectory input then input else input.parent
  let (files, projectClasses, w) ← plan.convertAll root outputRoot (plan.discover w.tree input) w
  .ok ({ input, output := outputRoot, files, projectClasses }, w)

end Plan

end Restage.Batch
