import Restage.Text.Quoted

/-!
# Paths

A path is a root and a list of names.  Reading a path drops empty names and single dots; a double
dot stays, since it may lead out of a linked directory.  The root is empty for a relative path, one
slash for an absolute one, and two slashes when a path starts with exactly two.
-/

namespace Restage

open Text

/-- A path. -/
structure Path where
  root : Text
  parts : List Text
  deriving DecidableEq, Repr

namespace Path

/-- Why there is no such path. -/
inductive Error where
  /-- The path has no last name to change. -/
  | emptyName (path : Path)
  | invalidSuffix (suffix : Text)
  | invalidName (name : Text)
  /-- The path does not lie below the other one. -/
  | notBelow (path other : Path)
  deriving DecidableEq, Repr

/-- The root that a written path starts with. -/
def rootOf (t : Text) : Text :=
  if startsWith "///" t then "/"
  else if startsWith "//" t then "//"
  else if startsWith "/" t then "/"
  else ""

def parse (t : Text) : Path :=
  ⟨rootOf t, (Text.parts '/' t).filter fun p => !p.isEmpty && p ≠ ".".toList⟩

def current : Path := ⟨[], []⟩

/-- The path as it is written; the current directory is a dot. -/
def toText (p : Path) : Text :=
  if p.root.isEmpty && p.parts.isEmpty then "." else p.root ++ join "/" p.parts

def name (p : Path) : Text := p.parts.getLast?.getD []

def parent (p : Path) : Path := { p with parts := p.parts.dropLast }

/-- The part of a name from its last dot on.  A dot at either end of the name starts none. -/
def suffixOf (name : Text) : Text :=
  match beforeLast? '.' name with
  | some (c :: stem) =>
    let suffix := name.drop (c :: stem).length
    if suffix.length > 1 then suffix else []
  | _ => []

def suffix (p : Path) : Text := suffixOf p.name

/-- The path below `p`, or `q` itself if that is absolute. -/
def append (p q : Path) : Path :=
  if q.root.isEmpty then { p with parts := p.parts ++ q.parts } else q

instance : Append Path := ⟨append⟩

def withLast (p : Path) (name : Text) : Path := { p with parts := p.parts.dropLast ++ [name] }

/-- The path with the suffix of its last name changed; an empty suffix removes it. -/
def withSuffix (p : Path) (suffix : Text) : Except Error Path :=
  if suffix.contains '/' || (!suffix.isEmpty && !startsWith "." suffix) || suffix == "." then
    .error (.invalidSuffix suffix)
  else if p.name.isEmpty then .error (.emptyName p)
  else .ok (p.withLast (p.name.take (p.name.length - p.suffix.length) ++ suffix))

/-- The path with its last name replaced. -/
def withName (p : Path) (name : Text) : Except Error Path :=
  if p.name.isEmpty then .error (.emptyName p)
  else if name.isEmpty || endsWith "/" name || !(parse name).root.isEmpty
      || (parse name).parts.length ≠ 1 then
    .error (.invalidName name)
  else .ok (p.withLast name)

/-- The path as seen from another one above it. -/
def relativeTo (p other : Path) : Except Error Path :=
  if p.root = other.root ∧ other.parts.isPrefixOf p.parts then
    .ok ⟨[], p.parts.drop other.parts.length⟩
  else .error (.notBelow p other)

/-- The order of paths: by their names, one after the other. -/
def le (p q : Path) : Bool :=
  precedes p.root q.root || (p.root == q.root && !q.parts.lex p.parts precedes)

def Error.message : Error → Text
  | .emptyName path => "PosixPath(" ++ quoted path.toText ++ ") has an empty name"
  | .invalidSuffix suffix => "Invalid suffix " ++ quoted suffix
  | .invalidName name => "Invalid name " ++ quoted name
  | .notBelow path other =>
    quoted path.toText ++ " is not in the subpath of "
      ++ quoted (if other = current then [] else other.toText)
      ++ " OR one path is relative and the other is absolute."

end Path

end Restage
