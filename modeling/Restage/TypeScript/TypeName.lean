import Restage.Project.ClassInfo

/-!
# Types

Every source type has a counterpart.  Arrays and lists become arrays of the counterpart of their
element type, texts, numbers and the like have counterparts of their own, and any other type keeps
the last part of its name.
-/

namespace Restage.TypeScript

open Text Java

def listHeads : List Text :=
  ["List", "ArrayList", "LinkedList", "Collection", "Set", "HashSet", "Iterable"]

def arrayElement? (t : Text) : Option Text :=
  if endsWith "[]" t then some (t.take (t.length - 2)) else none

/-- Reads the head of a list type and the angle bracket after it. -/
def listHead? (t : Text) : Option Text :=
  listHeads.findSome? fun head => (literal? head t).bind fun r => literal? "<" (blanks r)

/-- The element type of a list type; it stands on one line. -/
def listElement? (t : Text) : Option Text :=
  ((listHead? t).bind (dropFinal? '>')).filter fun inside =>
    inside.any (· ≠ '\n') && onOneLine (trim inside)

def elementType? (t : Text) : Option Text := (arrayElement? t).or (listElement? t)

def scalarNames : List (Text × List Text) :=
  [("string", ["String", "char", "Character", "CharSequence"]),
   ("number", ["int", "Integer", "long", "Long", "double", "Double", "float", "Float", "short",
     "Short", "byte", "Byte"]),
   ("boolean", ["boolean", "Boolean"]),
   ("void", ["void", "Void"]),
   ("unknown", ["Object"]),
   ("Locator", elementTypes)]

/-- The counterpart of a type that is neither an array nor a list. -/
def scalarName (t : Text) : Text :=
  let name := afterLast '.' (stripGenerics t)
  ((scalarNames.find? (·.2.contains name)).map (·.1)).getD name

/-! ## Element types are shorter -/

theorem arrayElement?_length {t u : Text} (h : arrayElement? t = some u) : u.length < t.length := by
  unfold arrayElement? at h
  split at h
  · rename_i hend
    have hlen : 2 ≤ t.length := by
      have := (List.isSuffixOf_iff_suffix.1 hend).length_le
      simpa using this
    cases h
    rw [List.length_take]
    omega
  · cases h

theorem listHead?_length {t r : Text} (h : listHead? t = some r) : r.length < t.length := by
  obtain ⟨head, _, hread⟩ := List.exists_of_findSome?_eq_some h
  obtain ⟨s, hs, hr⟩ := Option.bind_eq_some_iff.1 hread
  have h1 := length_of_literal? hs
  have h2 := length_of_literal? hr
  have h3 := length_blanks_le s
  have h4 : ("<".toList : Text).length = 1 := rfl
  omega

theorem listElement?_length {t u : Text} (h : listElement? t = some u) : u.length < t.length := by
  obtain ⟨h, _⟩ := Option.filter_eq_some_iff.1 h
  obtain ⟨r, hr, hu⟩ := Option.bind_eq_some_iff.1 h
  have h1 := listHead?_length hr
  unfold dropFinal? at hu
  split at hu
  · cases hu
    rw [List.length_dropLast]
    omega
  · cases hu

theorem elementType?_length {t u : Text} (h : elementType? t = some u) : u.length < t.length := by
  unfold elementType? at h
  cases ha : arrayElement? t with
  | some v =>
    rw [ha] at h
    cases h
    exact arrayElement?_length ha
  | none =>
    rw [ha] at h
    exact listElement?_length h

/-! ## The counterpart of a type -/

def typeName (t : Text) : Text :=
  if t.isEmpty then "void"
  else match h : elementType? (trim t) with
    | some element =>
      have : element.length < t.length :=
        Nat.lt_of_lt_of_le (elementType?_length h) (length_trim_le t)
      typeName element ++ "[]"
    | none => scalarName (trim t)
termination_by t.length

end Restage.TypeScript
