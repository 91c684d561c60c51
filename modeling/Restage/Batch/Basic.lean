import Restage.Conversion.Fault
import Restage.Encoding.Basic
import Restage.FileTree

/-!
# Batches

A batch converts all source files below a directory, or one file.  Its summary has one entry for
each file, in the order of the paths: where the output went, or why there is none.
-/

namespace Restage.Batch

open Text

/-- Why the text of a file is not known. -/
inductive ReadFault where
  | inaccessible (error : FileTree.Error)
  | undecodable (fault : Encoding.Fault)
  deriving DecidableEq, Repr

def ReadFault.message : ReadFault → Text
  | inaccessible error => error.message
  | undecodable fault => fault.message

/-- Why a file was not converted. -/
inductive Failure where
  | unreadable (source : Path) (fault : ReadFault)
  | unwritable (target : Path) (error : FileTree.Error)
  /-- There is no path for the output. -/
  | noTarget (error : Path.Error)
  | unconverted (fault : Conversion.Fault)
  deriving DecidableEq, Repr

def Failure.message : Failure → Text
  | unreadable source fault => source.toText ++ ": cannot read input: " ++ fault.message
  | unwritable target error => target.toText ++ ": cannot write output: " ++ error.message
  | noTarget error => error.message
  | unconverted fault => fault.message

/-- What a converted file gave: the path of the output and the number of diagnostics. -/
structure Converted where
  output : Path
  diagnostics : Nat
  deriving DecidableEq, Repr

/-- What became of a file. -/
structure FileResult where
  source : Path
  outcome : Except Failure Converted

def FileResult.isConverted (r : FileResult) : Bool :=
  match r.outcome with
  | .ok _ => true
  | .error _ => false

/-- The summary of a batch. -/
structure Summary where
  input : Path
  output : Path
  files : List FileResult
  /-- The number of classes that the analysis found. -/
  projectClasses : Nat

namespace Summary

def converted (s : Summary) : Nat := s.files.countP (·.isConverted)

def failed (s : Summary) : Nat := s.files.countP (!·.isConverted)

/-- The line about a file, if there is something to say about it. -/
def line? (r : FileResult) : Option Text :=
  match r.outcome with
  | .error failure => some ("  FAILED  " ++ r.source.toText ++ ": " ++ failure.message)
  | .ok result =>
    if result.diagnostics = 0 then none
    else some ("  " ++ r.source.toText ++ ": " ++ ofNat result.diagnostics
      ++ " line(s) skipped or commented")

def text (s : Summary) : Text :=
  let first : Text := "Converted " ++ ofNat s.converted ++ " of " ++ ofNat s.files.length
    ++ " file(s) into " ++ s.output.toText
  (first :: s.files.filterMap line?).flatMap (· ++ "\n")

end Summary

/-- Why a batch gives no summary. -/
inductive Error where
  | path (error : Path.Error)
  | unknownEncoding (name : Text)
  deriving DecidableEq, Repr

def Error.message : Error → Text
  | path error => error.message
  | unknownEncoding name => "unknown encoding: " ++ name

end Restage.Batch
