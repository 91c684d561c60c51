import Restage.Path

/-!
# Modules

A module is named by the path of its file from the root of the project, without the suffix.  One
module imports another by a specifier: the path from the importing module's directory to the other
module, starting with a dot.

Directories above the working directory have no known names.  A path that climbs above it is kept as
the number of steps up and the names below, which is all that a specifier between such paths needs.
-/

namespace Restage.Module

open Text

/-- The module of a file seen from the root of the project.  A file that does not lie below the root
is known by its name. -/
def ofPath (path : Path) (root : Option Path) : Except Path.Error Text := do
  let fromRoot := match root.map path.relativeTo with
    | some (.ok below) => below
    | _ => Path.parse path.name
  let stem ← fromRoot.withSuffix []
  .ok stem.toText

/-- A path without dots: how far it climbs, and the names below. -/
structure Place where
  climbs : Nat := 0
  names : List Text := []
  deriving DecidableEq, Repr

/-- One more name on a path; the names are held backwards. -/
def Place.enter (p : Place) (name : Text) : Place :=
  if name.isEmpty ∨ name = ".".toList then p
  else if name = "..".toList then
    match p.names with
    | [] => { p with climbs := p.climbs + 1 }
    | _ :: above => { p with names := above }
  else { p with names := name :: p.names }

/-- The place that a path names. -/
def place (t : Text) : Place :=
  let p := (parts '/' t).foldl Place.enter {}
  { p with names := p.names.reverse }

def directory (module : Text) : Text := (beforeLast? '/' module).getD []

/-- The names of two lists after their common beginning. -/
def diverge : List Text → List Text → List Text × List Text
  | a :: as, b :: bs => if a = b then diverge as bs else (a :: as, b :: bs)
  | as, bs => (as, bs)

/-- The path from one place to another. -/
def Place.route (origin target : Place) : Text :=
  let (up, down) :=
    if origin.climbs = target.climbs then diverge origin.names target.names
    else (List.replicate (target.climbs - origin.climbs) [] ++ origin.names, target.names)
  let steps := up.map (fun _ => "..".toList) ++ down
  if steps.isEmpty then "." else join "/" steps

/-- The specifier by which a module imports another one.  There is none for the empty path. -/
def specifier? (target : Text) (importer : Option Text) : Option Text :=
  if target.isEmpty then none
  else
    let route := (place (directory (importer.getD []))).route (place target)
    some (if startsWith "." route then route else "./" ++ route)

end Restage.Module
