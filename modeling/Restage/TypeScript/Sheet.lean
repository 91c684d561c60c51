import Restage.Table

/-!
# Sheets of code

The output of one file is collected on a sheet: its imports, its lines with their depths, and the
scopes that are open.  A scope is kept as the text that closes it.  Closing with no scope open only
counts a dropped closer, and rendering closes what is still open, so that the braces of a rendered
sheet are balanced whatever the calls were.
-/

namespace Restage.TypeScript

open Text

/-- A line of code and the number of scopes around it. -/
structure Line where
  depth : Nat
  text : Text
  deriving DecidableEq, Repr

/-- A sheet of code. -/
structure Sheet where
  /-- The imports that every file has. -/
  baseImports : List Text := []
  /-- The imports that this file needs. -/
  imports : List Text := []
  body : List Line := []
  /-- The closers of the open scopes, the innermost scope first. -/
  scopes : List Text := []
  /-- How often a scope was to be closed when none was open. -/
  droppedClosers : Nat := 0
  deriving DecidableEq, Repr

namespace Sheet

def depth (s : Sheet) : Nat := s.scopes.length

def mark (s : Sheet) : Nat := s.body.length

/-! ## Imports -/

def allImports (s : Sheet) : List Text := (s.baseImports ++ s.imports).foldl addNew []

def addImport (s : Sheet) (statement : Text) : Sheet :=
  { s with imports := addNew s.imports statement }

/-! ## Lines -/

def emit (s : Sheet) (line : Text) : Sheet := { s with body := s.body ++ [⟨s.depth, line⟩] }

def emitAll (s : Sheet) (lines : List Text) : Sheet := lines.foldl emit s

def comment (s : Sheet) (t : Text) : Sheet := s.emit (if t.isEmpty then "//" else "// " ++ t)

/-- Adds an empty line, unless the sheet is empty or its last line is an empty one. -/
def blank (s : Sheet) : Sheet :=
  match s.body.getLast? with
  | some line => if line.text.isEmpty then s else { s with body := s.body ++ [⟨0, []⟩] }
  | none => s

/-! ## Scopes -/

def openScope (s : Sheet) (line : Text) (closer : Text := "\x7d") : Sheet :=
  let s := s.emit line
  { s with scopes := closer :: s.scopes }

/-- Adds a line that ends a scope and opens the next one, such as an `else`. -/
def chain (s : Sheet) (line : Text) : Sheet :=
  match s.scopes with
  | [] => s.openScope line
  | closer :: outer => { s with scopes := outer }.openScope line closer

def closeScope (s : Sheet) : Sheet :=
  match s.scopes with
  | [] => { s with droppedClosers := s.droppedClosers + 1 }
  | closer :: outer => { s with scopes := outer }.emit closer

/-! ## Inserting -/

/-- The depth at a position; a negative position counts from the end, and one past the end stands
for the next line.  There is none before the start. -/
def depthAt? (s : Sheet) (position : Int) : Option Nat :=
  let length : Int := s.body.length
  if length ≤ position then some s.depth
  else
    let index := if position < 0 then position + length else position
    if index < 0 then none else s.body[index.toNat]?.map (·.depth)

/-- Inserts a line before a position; a negative position counts from the end, and one that is out
of range stands for the nearest end. -/
def insertLine (body : List Line) (position : Int) (line : Line) : List Line :=
  let index := if position < 0 then (position + body.length).toNat else position.toNat
  body.take index ++ line :: body.drop index

def insertLines (depth : Nat) (body : List Line) (position : Int) : List Text → List Line
  | [] => body
  | line :: rest => insertLines depth (insertLine body position ⟨depth, line⟩) (position + 1) rest

def insert? (s : Sheet) (position : Int) (lines : List Text) : Option Sheet :=
  (s.depthAt? position).map fun depth =>
    { s with body := insertLines depth s.body position lines }

/-! ## Rendering -/

/-- The lines that close the given scopes. -/
def closers : List Text → List Line
  | [] => []
  | closer :: outer => ⟨outer.length, closer⟩ :: closers outer

def dropEmptyEnd (body : List Line) : List Line :=
  (body.reverse.dropWhile (·.text.isEmpty)).reverse

/-- A line of code with its indentation; an empty line has none. -/
def indented (line : Line) : Text :=
  if line.text.isEmpty then [] else List.replicate (2 * line.depth) ' ' ++ line.text

def closedBody (s : Sheet) : List Line := dropEmptyEnd s.body ++ closers s.scopes

/-- The imports and the empty line after them. -/
def header (s : Sheet) : List Text :=
  if s.allImports.isEmpty then [] else s.allImports ++ [[]]

def render (s : Sheet) : Text := join "\n" (s.header ++ s.closedBody.map indented) ++ "\n"

end Sheet

end Restage.TypeScript
