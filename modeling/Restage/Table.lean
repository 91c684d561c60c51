import Restage.Text.Basic

/-!
# Tables

A table maps names to values and remembers the order in which names were first entered: that order
is the one in which imports, locals, attributes and class records are shown.  Entering a name again
changes its value and keeps its place.
-/

namespace Restage

/-- A table from names to values, in the order in which the names were first entered. -/
abbrev Table (α : Type) := List (Text × α)

namespace Table

variable {α : Type}

/-- The value entered for a name. -/
def get? (table : Table α) (name : Text) : Option α :=
  match table with
  | [] => none
  | (n, a) :: rest => if n = name then some a else get? rest name

def names (table : Table α) : List Text := table.map (·.1)

def has (table : Table α) (name : Text) : Bool := (get? table name).isSome

/-- Enters a value for a name; a name that is there already keeps its place. -/
def put (table : Table α) (name : Text) (value : α) : Table α :=
  match table with
  | [] => [(name, value)]
  | (n, a) :: rest => if n = name then (n, value) :: rest else (n, a) :: put rest name value

/-- Enters a value for a name that has none yet. -/
def putNew (table : Table α) (name : Text) (value : α) : Table α :=
  if has table name then table else put table name value

end Table

/-- Adds a text at the end of a list that does not hold it yet. -/
def addNew (texts : List Text) (t : Text) : List Text :=
  if texts.contains t then texts else texts ++ [t]

end Restage
