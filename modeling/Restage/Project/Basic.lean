import Restage.Project.Analysis
import Restage.Project.Module

/-!
# Projects

A project is the table of the classes of all its files and of the modules they live in.  Files are
read in the order of their paths; of several classes of one name the first one read is kept.
-/

namespace Restage

open Text

/-- A source file: its path, if it has one, and its document. -/
structure SourceFile where
  path : Option Path
  document : Java.Document
  deriving DecidableEq, Repr

namespace SourceFile

def key (f : SourceFile) : Text := (f.path.map Path.toText).getD []

def module (f : SourceFile) (root : Option Path) : Except Path.Error (Option Text) :=
  match f.path with
  | none => .ok none
  | some p => (Module.ofPath p root).map some

end SourceFile

/-- The classes of a project and the modules they live in. -/
structure Project where
  classes : Table ClassInfo := []
  modules : Table Text := []
  deriving DecidableEq, Repr

namespace Project

def has (p : Project) (name : Text) : Bool := p.classes.has name

/-- The class of the given name, whose package may be written in front. -/
def get? (p : Project) (name : Text) : Option ClassInfo :=
  if name.isEmpty then none else p.classes.get? (afterLast '.' name)

def roles (p : Project) (name : Text) : Roles := ((p.get? name).map (·.roles)).getD {}

/-- The specifier by which a module imports a class. -/
def specifier? (p : Project) (name : Text) (importer : Option Text) : Option Text :=
  (p.modules.get? name).bind (Module.specifier? · importer)

/-- Enters a class unless its name is known. -/
def add (p : Project) (module : Option Text) (c : ClassInfo) : Project :=
  if p.classes.has c.name then p
  else
    { classes := p.classes.put c.name c
      modules := match module with
        | some m => p.modules.put c.name m
        | none => p.modules }

/-- Enters the classes of a file. -/
def addFile (root : Option Path) (p : Project) (f : SourceFile) : Except Path.Error Project := do
  let module ← f.module root
  .ok ((f.document.classes module).foldl (fun p c => p.add module c) p)

def ofFiles (files : List SourceFile) (root : Option Path) : Except Path.Error Project :=
  (files.mergeSort fun f g => !precedes g.key f.key).foldlM (addFile root) {}

end Project

end Restage
