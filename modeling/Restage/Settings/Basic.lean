import Restage.Number.Binary64

/-!
# Settings

How files are found, read and written, and whether and how the pattern service is asked.
-/

namespace Restage

/-- How the log is written. -/
inductive LogFormat where
  | json
  | console
  deriving DecidableEq, Repr

def LogFormat.name : LogFormat → Text
  | json => "json"
  | console => "console"

/-- The settings of a run. -/
structure Settings where
  /-- The suffixes of source files. -/
  sourceExtensions : List Text := [".java"]
  /-- The names of directories in which no source files are looked for. -/
  excludedDirs : List Text :=
    [".git", ".idea", ".gradle", "target", "build", "bin", "out", "node_modules", "__pycache__"]
  sourceEncoding : Text := "utf-8"
  outputExtension : Text := ".ts"
  /-- What is added to the name of a directory to name its output. -/
  outputDirSuffix : Text := "_playwright"
  /-- The imports that every output file has. -/
  baseImports : List Text := ["import \x7b Page, Locator, expect \x7d from '@playwright/test';"]
  /-- Whether the numbered source and the report of skipped lines are written beside the output. -/
  writeDiagnostics : Bool := false
  /-- Whether all files are analysed before the first one is converted. -/
  useProjectContext : Bool := true
  patternRecognitionEnabled : Bool := false
  apiKey : Text := []
  model : Text := "gpt-4o-mini"
  temperature : Binary64 := .ofDecimal false 1 (-1)
  /-- How long answers of the pattern service are kept, in seconds. -/
  cacheTtl : Int := 300
  maxTokens : Int := 1024
  logLevel : Text := "WARNING"
  logFormat : LogFormat := .console

namespace Settings

/-- Whether the pattern service can be asked: it is enabled and has a key. -/
def isServiceConfigured (s : Settings) : Bool :=
  s.patternRecognitionEnabled && !s.apiKey.isEmpty

end Settings

end Restage
