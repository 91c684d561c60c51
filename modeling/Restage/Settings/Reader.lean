import Restage.Json.Coerce
import Restage.Json.Reader
import Restage.Settings.Basic

/-!
# Reading settings

Settings are given as values, as environment variables or as lines of an environment file, in this
order of precedence.  A variable is named for its field with the program's name in front, in any
case, and one for a list holds a JSON list.  Unknown names are ignored.

A list variable that is no JSON is an error of its own; all other errors are counted.
-/

namespace Restage.Settings

open Text
open Restage.Json (Value)

/-- Where a variable was read from. -/
inductive Source where
  | environment
  | file
  deriving DecidableEq, Repr

def Source.name : Source → Text
  | environment => "EnvSettingsSource"
  | file => "DotEnvSettingsSource"

/-- Why there are no settings. -/
inductive Error where
  /-- A list variable is no JSON. -/
  | malformed (field : Text) (source : Source)
  /-- Values were refused. -/
  | invalid (count : Nat)
  deriving DecidableEq, Repr

/-- The first line of the wording of an error. -/
def Error.message : Error → Text
  | malformed field source =>
    "error parsing value for field \"" ++ field ++ "\" from source \"" ++ source.name ++ "\""
  | invalid count =>
    ofNat count ++ " validation error" ++ (if count = 1 then [] else "s".toList) ++ " for Settings"

/-! ## Fields -/

/-- A field: its name, whether it holds a list, and how a value is entered.  A refused value gives
the number of errors. -/
structure Field where
  name : Text
  isList : Bool := false
  set : Value → Settings → Except Nat Settings

def enter {α : Type} (read : Value → Option α) (put : α → Settings → Settings) (v : Value)
    (s : Settings) : Except Nat Settings :=
  match read v with
  | some a => .ok (put a s)
  | none => .error 1

/-- Enters a list of texts; every item that is no text is an error. -/
def enterTexts (put : List Text → Settings → Settings) (v : Value) (s : Settings) :
    Except Nat Settings :=
  match v with
  | .array items =>
    match items.countP fun i => i.text?.isNone with
    | 0 => .ok (put (items.filterMap Value.text?) s)
    | refused => .error refused
  | _ => .error 1

def logFormat? (v : Value) : Option LogFormat :=
  v.text?.bind fun t => [LogFormat.json, LogFormat.console].find? (·.name = t)

def fields : List Field :=
  [{ name := "source_extensions", isList := true,
     set := enterTexts fun ts s => { s with sourceExtensions := ts } },
   { name := "excluded_dirs", isList := true,
     set := enterTexts fun ts s => { s with excludedDirs := ts } },
   { name := "source_encoding",
     set := enter Value.text? fun t s => { s with sourceEncoding := t } },
   { name := "output_extension",
     set := enter Value.text? fun t s => { s with outputExtension := t } },
   { name := "output_dir_suffix",
     set := enter Value.text? fun t s => { s with outputDirSuffix := t } },
   { name := "base_imports", isList := true,
     set := enterTexts fun ts s => { s with baseImports := ts } },
   { name := "write_diagnostics",
     set := enter Value.asBool? fun b s => { s with writeDiagnostics := b } },
   { name := "use_project_context",
     set := enter Value.asBool? fun b s => { s with useProjectContext := b } },
   { name := "pattern_recognition_enabled",
     set := enter Value.asBool? fun b s => { s with patternRecognitionEnabled := b } },
   { name := "openai_api_key", set := enter Value.text? fun t s => { s with apiKey := t } },
   { name := "openai_model", set := enter Value.text? fun t s => { s with model := t } },
   { name := "openai_temperature",
     set := enter Value.asReal? fun x s => { s with temperature := x } },
   { name := "pattern_cache_ttl", set := enter Value.asInt? fun n s => { s with cacheTtl := n } },
   { name := "pattern_max_tokens", set := enter Value.asInt? fun n s => { s with maxTokens := n } },
   { name := "log_level", set := enter Value.text? fun t s => { s with logLevel := t } },
   { name := "log_format", set := enter logFormat? fun f s => { s with logFormat := f } }]

/-! ## Sources -/

def variableName (field : Text) : Text := "pomshift_" ++ field

/-- The value of a field in a list of environment variables; of several spellings of one name the
last counts. -/
def valueOf? (entries : List (Text × Text)) (field : Text) : Option Text :=
  (entries.reverse.find? fun v => lower v.1 = variableName field).map (·.2)

/-- The value that a source gives for a field.  A list that is null is not given. -/
def sourceValue? (source : Source) (entries : List (Text × Text)) (f : Field) :
    Except Error (Option Value) :=
  match valueOf? entries f.name with
  | none => .ok none
  | some t =>
    if f.isList then
      match Json.read t with
      | .ok .null => .ok none
      | .ok v => .ok (some v)
      | .error _ => .error (.malformed f.name source)
    else .ok (some (.string t))

def sourceValues (source : Source) (entries : List (Text × Text)) : Except Error (Table Value) :=
  fields.foldlM (fun given f => do
    match ← sourceValue? source entries f with
    | some v => .ok (given.put f.name v)
    | none => .ok given) []

/-- Enters the value given for a field; `refused` counts the errors so far. -/
def enterField (given : Text → Option Value) (state : Settings × Nat) (f : Field) :
    Settings × Nat :=
  match given f.name with
  | none => state
  | some v =>
    match f.set v state.1 with
    | .ok s => (s, state.2)
    | .error refused => (state.1, state.2 + refused)

def ofSources (values : Table Value) (environment file : List (Text × Text) := []) :
    Except Error Settings := do
  let fromEnvironment ← sourceValues .environment environment
  let fromFile ← sourceValues .file file
  let given (name : Text) : Option Value :=
    ((values.get? name).or (fromEnvironment.get? name)).or (fromFile.get? name)
  match fields.foldl (enterField given) ({}, 0) with
  | (s, 0) => .ok s
  | (_, refused) => .error (.invalid refused)

/-! ## Environment files -/

/-- A value without the quotes around it; the value of an unquoted line ends before a comment. -/
def lineValue (t : Text) : Text :=
  match t with
  | q :: r =>
    if (q = '"' ∨ q = '\x27') ∧ r.contains q then r.takeWhile (· ≠ q)
    else trimRight (((suffixes t).find? (startsWith " #")).elim t (consumed t))
  | [] => []

/-- The variable that a line of an environment file sets. -/
def lineVariable? (line : Text) : Option (Text × Text) := do
  let t := trim line
  if startsWith "#" t then none
  else
    let (name, value) ← cutFirst? '=' t
    let name := ((literal? "export " name).map trimLeft).getD name
    some (trim name, lineValue (trim value))

def fileVariables (t : Text) : List (Text × Text) := (parts '\n' t).filterMap lineVariable?

end Restage.Settings
