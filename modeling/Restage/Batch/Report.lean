import Restage.Batch.Basic
import Restage.Json.Value

/-!
# Batch reports

The summary of a batch as a JSON object.
-/

namespace Restage.Batch

open Json (Value)

def pathValue : Option Path → Value
  | some p => .string p.toText
  | none => .null

/-- What became of a file, as an object. -/
def FileResult.toJson (r : FileResult) : Value :=
  let (status, output, diagnostics, message) : Text × Option Path × Nat × Value :=
    match r.outcome with
    | .ok result => ("converted", some result.output, result.diagnostics, .null)
    | .error failure => ("failed", none, 0, .string failure.message)
  let members : List (Text × Value) :=
    [("source", pathValue (some r.source)), ("status", .string status),
     ("output", pathValue output), ("diagnostics", .int diagnostics), ("error_message", message)]
  .object members

def Summary.toJson (s : Summary) : Value :=
  let members : List (Text × Value) :=
    [("input_path", pathValue (some s.input)), ("output_path", pathValue (some s.output)),
     ("total", .int s.files.length), ("converted", .int s.converted), ("failed", .int s.failed),
     ("project_classes", .int s.projectClasses), ("files", .array (s.files.map (·.toJson)))]
  .object members

end Restage.Batch
