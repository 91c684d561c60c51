import Restage.Path

/-!
# File trees

The files that a batch reads and writes, as a value: what stands at each place.  A place is a list
of names from the working directory; leading double dots lead out of it, and a leading slash stands
for the root of all files.

A path is followed name by name, so a double dot leads to the directory above the one reached so
far.
-/

namespace Restage

open Text

abbrev Place := List Text

/-- What stands at a place. -/
inductive Entry where
  | directory
  | file (content : List UInt8)
  deriving DecidableEq, Repr

/-- A file tree: the entries at the places that are known. -/
structure FileTree where
  entries : List (Place × Entry) := []
  deriving DecidableEq, Repr

namespace FileTree

/-! ## Errors -/

/-- Why an operation is not possible. -/
inductive Cause where
  | missing
  | alreadyThere
  | notDirectory
  | isDirectory
  deriving DecidableEq, Repr

/-- The number and the wording of a cause. -/
def Cause.message : Cause → Text
  | missing => "[Errno 2] No such file or directory"
  | alreadyThere => "[Errno 17] File exists"
  | notDirectory => "[Errno 20] Not a directory"
  | isDirectory => "[Errno 21] Is a directory"

/-- An operation on a path that is not possible. -/
structure Error where
  cause : Cause
  path : Path
  deriving DecidableEq, Repr

def Error.message (e : Error) : Text := e.cause.message ++ ": " ++ quoted e.path.toText

/-! ## Looking -/

def rootPlace : Place := ["/"]

def isAbove (p : Place) : Bool := p.all (· == "..")

def at? (t : FileTree) (p : Place) : Option Entry :=
  if isAbove p || p == rootPlace then some .directory
  else (t.entries.find? (·.1 = p)).map (·.2)

def inside (p : Place) (name : Text) : Place :=
  if name ≠ "..".toList ∨ isAbove p then p ++ [name]
  else if p = rootPlace then p
  else p.dropLast

/-- Goes from a directory to one of its names. -/
def go (t : FileTree) (p : Place) (name : Text) : Except Cause Place :=
  match t.at? p with
  | some .directory => .ok (inside p name)
  | some (.file _) => .error .notDirectory
  | none => .error .missing

def follow (t : FileTree) (path : Path) : Except Cause Place :=
  path.parts.foldlM t.go (if path.root.isEmpty then [] else rootPlace)

def look (t : FileTree) (path : Path) : Option Entry :=
  match t.follow path with
  | .ok p => t.at? p
  | .error _ => none

def isDirectory (t : FileTree) (path : Path) : Bool := t.look path == some .directory

def isFile (t : FileTree) (path : Path) : Bool :=
  match t.look path with
  | some (.file _) => true
  | _ => false

/-- The bytes of the file that a path leads to. -/
def read (t : FileTree) (path : Path) : Except Error (List UInt8) :=
  match t.follow path with
  | .error cause => .error ⟨cause, path⟩
  | .ok p =>
    match t.at? p with
    | some (.file content) => .ok content
    | some .directory => .error ⟨.isDirectory, path⟩
    | none => .error ⟨.missing, path⟩

def filesBelow (t : FileTree) (path : Path) : List Path :=
  match t.follow path with
  | .error _ => []
  | .ok p =>
    let paths := t.entries.filterMap fun (place, entry) =>
      match entry with
      | .file _ =>
        if p.isPrefixOf place ∧ p ≠ place then
          some { path with parts := path.parts ++ place.drop p.length }
        else none
      | .directory => none
    paths.mergeSort Path.le

/-! ## Changing -/

def put (t : FileTree) (p : Place) (entry : Entry) : FileTree :=
  { entries := t.entries.filter (·.1 ≠ p) ++ [(p, entry)] }

/-- An operation that may change a file tree and fail; what was changed before stays. -/
abbrev Change := ExceptT Error (StateM FileTree)

/-- Goes to the directory that is to hold the last name of a path. -/
def parentOf (path : Path) : Change Place := do
  let t ← get
  match t.follow path.parent with
  | .error cause => throw ⟨cause, path⟩
  | .ok p =>
    match t.at? p with
    | some .directory => return p
    | some (.file _) => throw ⟨.notDirectory, path⟩
    | none => throw ⟨.missing, path⟩

def makeDirectory (path : Path) : Change Unit := do
  let p ← parentOf path
  let place := inside p path.name
  if path.parts.isEmpty ∨ path.name = "..".toList ∨ ((← get).at? place).isSome then
    throw ⟨.alreadyThere, path⟩
  else modify (·.put place .directory)

/-- Makes a directory that may be there already. -/
def ensureDirectory (path : Path) : Change Unit := do
  try makeDirectory path
  catch e => if (← get).isDirectory path then pure () else throw e

/-- Makes a directory and those above it; `depth` bounds the number of names. -/
def ensureDirectoriesUpTo : Nat → Path → Change Unit
  | 0, path => ensureDirectory path
  | depth + 1, path => do
    try makeDirectory path
    catch e =>
      if e.cause = .missing ∧ !path.parts.isEmpty then
        ensureDirectoriesUpTo depth path.parent
        ensureDirectory path
      else if (← get).isDirectory path then pure ()
      else throw e

/-- Makes a directory and those above it. -/
def ensureDirectories (path : Path) : Change Unit :=
  ensureDirectoriesUpTo path.parts.length path

/-- Writes a file; the directory that holds it has to be there. -/
def write (path : Path) (content : List UInt8) : Change Unit := do
  let p ← parentOf path
  let place := inside p path.name
  match (← get).at? place with
  | some .directory => throw ⟨.isDirectory, path⟩
  | _ => modify (·.put place (.file content))

/-! ## Comparing -/

def placePath (p : Place) : Path :=
  if p.head? = some "/".toList then ⟨"/", p.tail⟩ else ⟨[], p⟩

/-- The files of a tree that are not in an earlier tree, or not with these bytes, by their paths. -/
def changedSince (t earlier : FileTree) : List (Place × List UInt8) :=
  let changed := t.entries.filterMap fun (place, entry) =>
    match entry with
    | .file content => if earlier.at? place = some entry then none else some (place, content)
    | .directory => none
  changed.mergeSort fun a b => !precedes (placePath b.1).toText (placePath a.1).toText

end FileTree

end Restage
