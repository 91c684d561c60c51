import Restage.Project.Basic

/-!
# Looking up classes

A name in a file is looked up in the project first and then among the classes of the file itself.
What the conversion asks about a name is whether it is a page object, an exception or an element,
and which classes it descends from.
-/

namespace Restage.Conversion

open Text

/-- Where classes are looked up. -/
structure Lookup where
  project : Option Project
  /-- The classes of the file, in source order. -/
  classes : List ClassInfo

namespace Lookup

def own? (l : Lookup) (name : Text) : Option ClassInfo := l.classes.find? (·.name = name)

/-- The class of the given name; the class of the file may be given with a package in front. -/
def class? (l : Lookup) (name : Text) : Option ClassInfo :=
  if name.isEmpty then none
  else (l.project.bind (·.get? name)).or (l.own? (afterLast '.' name))

def parent? (l : Lookup) (c : ClassInfo) : Option ClassInfo := c.parent.bind l.class?

/-- The roles of a class: those of the project's class of that name if there is one. -/
def roles (l : Lookup) (c : ClassInfo) : Roles :=
  ((l.project.bind (·.get? c.name)).getD c).roles

def isPageType (l : Lookup) (name : Text) : Bool :=
  (l.class? name).any fun c => (l.roles c).isPageObject

/-- Whether a field holds an element: it has a locator, an element type, or the type of a class
that wraps an element. -/
def isElementField (l : Lookup) (f : FieldInfo) : Bool :=
  f.hasLocatorAnnotation || elementTypes.contains f.elementType
  || (l.class? f.elementType).any fun c => (l.roles c).isElementWrapper

def elementFields (l : Lookup) (c : ClassInfo) : List Text :=
  (c.fields.filter l.isElementField).map (·.name)

/-! ## Ancestors -/

/-- All classes that can be looked up. -/
def known (l : Lookup) : List ClassInfo :=
  ((l.project.map (·.classes)).getD []).map (·.2) ++ l.classes

theorem mem_of_table_get? {α : Type} {table : Table α} {name : Text} {a : α}
    (h : table.get? name = some a) : a ∈ table.map (·.2) := by
  induction table with
  | nil => cases h
  | cons entry rest ih =>
    obtain ⟨n, b⟩ := entry
    rw [Table.get?] at h
    split at h
    · cases h
      exact List.mem_cons_self
    · exact List.mem_cons_of_mem _ (ih h)

theorem mem_known_of_class? {l : Lookup} {name : Text} {c : ClassInfo}
    (h : l.class? name = some c) : c ∈ l.known := by
  unfold class? at h
  split at h
  · cases h
  · rcases Option.or_eq_some_iff.1 h with h | ⟨_, h⟩
    · obtain ⟨p, hp, hc⟩ := Option.bind_eq_some_iff.1 h
      unfold Project.get? at hc
      split at hc
      · cases hc
      · apply List.mem_append_left
        rw [hp]
        exact mem_of_table_get? hc
    · exact List.mem_append_right _ (List.mem_of_find?_eq_some h)

theorem mem_known_of_parent? {l : Lookup} {c parent : ClassInfo}
    (h : l.parent? c = some parent) : parent ∈ l.known := by
  obtain ⟨_, _, h⟩ := Option.bind_eq_some_iff.1 h
  exact mem_known_of_class? h

theorem length_filter_lt {α : Type} {p q : α → Bool} {xs : List α} {a : α} (ha : a ∈ xs)
    (hp : p a = true) (hq : q a = false) (hqp : ∀ x, q x = true → p x = true) :
    (xs.filter q).length < (xs.filter p).length := by
  induction xs with
  | nil => cases ha
  | cons x xs ih =>
    have hle : (xs.filter q).length ≤ (xs.filter p).length := by
      rw [← List.countP_eq_length_filter, ← List.countP_eq_length_filter]
      exact List.countP_mono_left fun x _ => hqp x
    rcases List.mem_cons.1 ha with rfl | hx
    · simp only [List.filter_cons, hp, hq, if_true, List.length_cons]
      exact Nat.lt_succ_of_le hle
    · have := ih hx
      cases hqx : q x
      · cases hpx : p x <;> simp [hqx, hpx] <;> omega
      · simp [hqx, hqp x hqx]
        omega

/-- How many of the known classes have names that have not been seen. -/
def unseen (l : Lookup) (seen : List Text) : Nat :=
  (l.known.filter fun c => !seen.contains c.name).length

theorem unseen_cons_lt {l : Lookup} {seen : List Text} {c : ClassInfo} (hc : c ∈ l.known)
    (hs : seen.contains c.name = false) : l.unseen (c.name :: seen) < l.unseen seen := by
  apply length_filter_lt hc
  · simpa using hs
  · simp
  · intro x hx
    simp at hx ⊢
    exact hx.2

/-- The classes above a class, the nearest first, as long as their names are new. -/
def ancestorsFrom (l : Lookup) (seen : List Text) (c : ClassInfo) : List ClassInfo :=
  match h : l.parent? c with
  | none => []
  | some parent =>
    if hs : seen.contains parent.name = true then []
    else
      have := unseen_cons_lt (mem_known_of_parent? h) (Bool.not_eq_true _ ▸ hs)
      parent :: l.ancestorsFrom (parent.name :: seen) parent
termination_by l.unseen seen

/-- The classes that a class descends from, the nearest first. -/
def ancestors (l : Lookup) (c : ClassInfo) : List ClassInfo := l.ancestorsFrom [c.name] c

end Lookup

end Restage.Conversion
