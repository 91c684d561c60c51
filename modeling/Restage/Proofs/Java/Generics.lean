import Restage.Java.TypeName
import Restage.Proofs.Text.Readers
import Restage.Proofs.Text.Scanning

/-!
# Types and the removal of generic argument lists

A type is a name, with any nesting of type arguments and any number of brackets.  What counts as a
name is left open, since more names may stand in a parameter list than in a type that is mapped.

Generic argument lists are removed from the inside out, all innermost ones at a time.  A pass
changes nothing exactly if there are none (`stripFlatGenerics_eq_self_iff`), and it never changes
what stands outside of all brackets (`outside?_stripFlatGenerics`).  So the passes end, and where
the brackets match they come to removing the outermost ones.
-/

namespace Restage.Java

open Text List

/-! ## Types and their texts -/

section Types

mutual

/-- A type over some names. -/
inductive TypeTree (Name : Type) where
  | named (name : Name)
  | generic (name : Name) (args : TypeArguments Name)
  | array (element : TypeTree Name)

/-- One or more type arguments. -/
inductive TypeArguments (Name : Type) where
  | last (t : TypeTree Name)
  | more (t : TypeTree Name) (rest : TypeArguments Name)

end

variable {Name : Type} (text : Name → Text)

mutual

/-- The text of a type, given the texts of names. -/
def TypeTree.render : TypeTree Name → Text
  | .named name => text name
  | .generic name args => text name ++ '<' :: (args.render ++ ['>'])
  | .array element => element.render ++ ['[', ']']

def TypeArguments.render : TypeArguments Name → Text
  | .last t => t.render
  | .more t rest => t.render ++ ',' :: ' ' :: rest.render

end

end Types

variable {t u : Text} {c : Char} {depth : Nat}

/-! ## Outside of all brackets -/

/-- What stands outside of all angle brackets, `depth` of which are open before the text; nothing if
they do not match or if there is a parenthesis. -/
def outside? : Nat → Text → Option Text
  | depth, [] => if depth = 0 then some [] else none
  | depth, c :: t =>
    if c = '<' then outside? (depth + 1) t
    else if c = '>' then if depth = 0 then none else outside? (depth - 1) t
    else if isFlat c then (outside? depth t).map ((if depth = 0 then [c] else []) ++ ·)
    else none

lemma outside?_flat (h : isFlat c = true) (depth : Nat) (t : Text) :
    outside? depth (c :: t) = (outside? depth t).map ((if depth = 0 then [c] else []) ++ ·) := by
  have hopen : c ≠ '<' := by
    rintro rfl
    cases h
  have hclose : c ≠ '>' := by
    rintro rfl
    cases h
  rw [outside?, if_neg hopen, if_neg hclose, if_pos h]

lemma outside?_cases (h : outside? depth (c :: t) = some u) :
    (c = '<' ∧ outside? (depth + 1) t = some u) ∨
      (∃ outer, c = '>' ∧ depth = outer + 1 ∧ outside? outer t = some u) ∨
      isFlat c = true ∧ ∃ w, outside? depth t = some w ∧ (if depth = 0 then [c] else []) ++ w = u := by
  by_cases hflat : isFlat c = true
  · rw [outside?_flat hflat] at h
    exact .inr (.inr ⟨hflat, Option.map_eq_some_iff.1 h⟩)
  rw [outside?] at h
  split_ifs at h with hopen hclose hdepth
  · exact .inl ⟨hopen, h⟩
  · exact .inr (.inl ⟨depth - 1, hclose, by omega, h⟩)

lemma outside?_of_flat (h : ∀ c ∈ t, isFlat c = true) : outside? 0 t = some t := by
  induction t with
  | nil => rfl
  | cons c t ih =>
    rw [forall_mem_cons] at h
    rw [outside?_flat h.1, ih h.2]
    rfl

/-- A text whose brackets match may be followed by any other one, also inside of more brackets. -/
lemma outside?_append (h : outside? depth t = some u) (v : Text) :
    outside? depth (t ++ v) = (outside? 0 v).map (u ++ ·) ∧
      ∀ more, outside? (depth + more + 1) (t ++ v) = outside? (more + 1) v := by
  induction t generalizing depth u with
  | nil =>
    rw [outside?] at h
    split_ifs at h with hdepth
    cases h
    simp [hdepth]
  | cons c t ih =>
    rcases outside?_cases h with ⟨rfl, h⟩ | ⟨outer, rfl, rfl, h⟩ | ⟨hflat, w, hw, rfl⟩
    · refine ⟨(ih h).1, fun more => ?_⟩
      rw [← (ih h).2, Nat.add_right_comm depth 1]
      rfl
    · refine ⟨(ih h).1, fun more => ?_⟩
      rw [← (ih h).2, Nat.add_right_comm outer 1]
      rfl
    · obtain ⟨houter, hinner⟩ := ih hw
      refine ⟨?_, fun more => ?_⟩
      · rw [cons_append, outside?_flat hflat, houter, Option.map_map]
        simp only [Function.comp_def, append_assoc]
      · rw [cons_append, outside?_flat hflat, hinner]
        exact Option.map_id'

lemma outside?_group (h : outside? 0 t = some u) (v : Text) :
    outside? depth ('<' :: (t ++ '>' :: v)) = outside? depth v := by
  have hinner := (outside?_append h ('>' :: v)).2 depth
  rw [Nat.zero_add] at hinner
  exact hinner

/-- Brackets match if none is closed that is not open and none is left open. -/
lemma exists_outside? (hopen : '(' ∉ t) (hclose : ')' ∉ t)
    (hnested : ∀ p ∈ t.inits, p.count '>' ≤ depth + p.count '<') (htotal : depth + t.count '<' = t.count '>') :
    ∃ u, outside? depth t = some u := by
  induction t generalizing depth with
  | nil => exact ⟨[], if_pos htotal⟩
  | cons c t ih =>
    rw [mem_cons, not_or] at hopen hclose
    have hfirst : ∀ p ∈ t.inits, (c :: p).count '>' ≤ depth + (c :: p).count '<' := fun p hp =>
      hnested _ ((mem_inits _ _).2 (cons_prefix_cons.2 ⟨rfl, (mem_inits p t).1 hp⟩))
    by_cases hflat : isFlat c = true
    · have hne : c ≠ '<' ∧ c ≠ '>' := by constructor <;> rintro rfl <;> cases hflat
      simp only [count_cons_of_ne hne.1, count_cons_of_ne hne.2] at hfirst htotal
      obtain ⟨u, hu⟩ := ih hopen.2 hclose.2 hfirst htotal
      exact ⟨_, by rw [outside?_flat hflat, hu]; rfl⟩
    obtain rfl | rfl : c = '<' ∨ c = '>' := by
      by_contra! hne
      exact hflat (by simp [isFlat, hne, Ne.symm hopen.1, Ne.symm hclose.1])
    · simp only [count_cons_self, count_cons_of_ne (show '<' ≠ '>' by decide)] at hfirst htotal
      exact ih hopen.2 hclose.2 (fun p hp => by have := hfirst p hp; omega) (by omega)
    · simp only [count_cons_self, count_cons_of_ne (show '>' ≠ '<' by decide)] at hfirst htotal
      have hpos : 0 + 1 ≤ depth + 0 := hfirst [] ((mem_inits _ _).2 nil_prefix)
      obtain ⟨outer, rfl⟩ := Nat.exists_eq_add_one.2 hpos
      exact ih hopen.2 hclose.2 (fun p hp => by have := hfirst p hp; omega) (by omega)

/-! ## One pass -/

lemma flatGenerics?_eq_some_iff {rest : Text} : flatGenerics? t = some ((), rest) ↔
    ∃ inner, (∀ c ∈ inner, isFlat c = true) ∧ t = '<' :: (inner ++ '>' :: rest) := by
  constructor
  · intro h
    unfold flatGenerics? at h
    split at h
    next r =>
      obtain ⟨rest, hrest, h⟩ := Option.map_eq_some_iff.1 h
      cases h
      have hclose : '>' :: rest = r.dropWhile isFlat := isPrefixOf?_eq_some_iff_append_eq.1 hrest
      have hsplit : r = r.takeWhile isFlat ++ '>' :: rest := by rw [hclose, takeWhile_append_dropWhile]
      exact ⟨r.takeWhile isFlat, fun c hc => mem_takeWhile_imp hc, congrArg ('<' :: ·) hsplit⟩
    · cases h
  · rintro ⟨inner, hinner, rfl⟩
    rw [flatGenerics?, dropWhile_append_of_pos hinner]
    rfl

lemma stripFlatGenerics_cons (h : flatGenerics? (c :: t) = none) :
    stripFlatGenerics (c :: t) = c :: stripFlatGenerics t := by
  rw [stripFlatGenerics, scan_cons_of_none h]
  rfl

lemma stripFlatGenerics_group {inner rest : Text} (h : ∀ c ∈ inner, isFlat c = true) :
    stripFlatGenerics ('<' :: (inner ++ '>' :: rest)) = stripFlatGenerics rest := by
  have hsplit : '<' :: (inner ++ '>' :: rest) = '<' :: (inner ++ ['>']) ++ rest := by simp
  have hread := flatGenerics?_eq_some_iff.2 ⟨inner, h, hsplit.symm⟩
  rw [hsplit, stripFlatGenerics, scan_append_of_some (cons_ne_nil _ _) hread]
  rfl

/-- A pass goes from an innermost argument list, or from a character where none starts, to what
follows. -/
lemma pass_induction {P : Text → Prop} (nil : P [])
    (keep : ∀ c t, flatGenerics? (c :: t) = none → P t → P (c :: t))
    (group : ∀ inner rest, (∀ c ∈ inner, isFlat c = true) → P rest → P ('<' :: (inner ++ '>' :: rest)))
    (t : Text) : P t := by
  induction hlength : t.length using Nat.strong_induction_on generalizing t with
  | _ n ih =>
    cases t with
    | nil => exact nil
    | cons c t =>
      cases hread : flatGenerics? (c :: t) with
      | none => exact keep c t hread (ih _ (by simp [← hlength]) t rfl)
      | some found =>
        obtain ⟨inner, hinner, heq⟩ := flatGenerics?_eq_some_iff.1 hread
        rw [heq] at hlength ⊢
        refine group inner found.2 hinner (ih _ ?_ _ rfl)
        simp only [length_cons, length_append] at hlength
        omega

lemma stripFlatGenerics_sublist (t : Text) : stripFlatGenerics t <+ t := by
  induction t using pass_induction with
  | nil => exact .slnil
  | keep c t hnone ih =>
    rw [stripFlatGenerics_cons hnone]
    exact ih.cons_cons c
  | group inner rest hinner ih =>
    rw [stripFlatGenerics_group hinner]
    exact ih.trans (((sublist_cons_self _ _).trans (sublist_append_right _ _)).cons _)

lemma outside?_stripFlatGenerics (t : Text) (depth : Nat) :
    outside? depth (stripFlatGenerics t) = outside? depth t := by
  induction t using pass_induction generalizing depth with
  | nil => rfl
  | keep c t hnone ih => simp only [stripFlatGenerics_cons hnone, outside?, ih]
  | group inner rest hinner ih =>
    rw [stripFlatGenerics_group hinner, ih, outside?_group (outside?_of_flat hinner)]

/-- No innermost argument list is left. -/
def Bare (t : Text) : Prop := ∀ inner, '<' :: (inner ++ ['>']) <:+: t → ∃ c ∈ inner, isFlat c = false

/-- **A pass changes nothing** exactly if there is no innermost argument list. -/
lemma stripFlatGenerics_eq_self_iff : stripFlatGenerics t = t ↔ Bare t := by
  induction t using pass_induction with
  | nil => exact iff_of_true rfl fun _ h => by cases infix_nil.1 h
  | keep c t hnone ih =>
    rw [stripFlatGenerics_cons hnone, cons.injEq, eq_self, true_and, ih]
    refine ⟨fun h inner hinfix => ?_, fun h inner hinfix => h inner (infix_cons hinfix)⟩
    rcases infix_cons_iff.1 hinfix with ⟨rest, hrest⟩ | hinfix
    · by_contra! hflat
      have hsome : flatGenerics? (c :: t) = some ((), rest) :=
        flatGenerics?_eq_some_iff.2 ⟨inner, by simpa using hflat, by simp [← hrest]⟩
      cases hnone.symm.trans hsome
    · exact h inner hinfix
  | group inner rest hinner =>
    rw [stripFlatGenerics_group hinner]
    refine iff_of_false (fun h => ?_) fun h => ?_
    · have hle := (stripFlatGenerics_sublist rest).length_le
      rw [h] at hle
      simp only [length_cons, length_append] at hle
      omega
    · obtain ⟨d, hd, hflat⟩ := h inner ⟨[], rest, by simp⟩
      rw [hinner d hd] at hflat
      cases hflat

/-! ## Until nothing changes -/

lemma stripGenerics_sublist (t : Text) : stripGenerics t <+ t := by
  fun_induction stripGenerics t with
  | case1 t less _ ih => exact ih.trans (stripFlatGenerics_sublist t)
  | case2 t => exact stripFlatGenerics_sublist t

/-- **The passes end** at a text that another one would not change, and leave what stands
outside. -/
lemma stripGenerics_ends (t : Text) : stripFlatGenerics (stripGenerics t) = stripGenerics t ∧
    (∃ passes, stripFlatGenerics^[passes] t = stripGenerics t) ∧
    outside? 0 (stripGenerics t) = outside? 0 t := by
  fun_induction stripGenerics t with
  | case1 t less _ ih =>
    obtain ⟨hfixed, ⟨passes, hpasses⟩, houtside⟩ := ih
    exact ⟨hfixed, ⟨passes + 1, hpasses⟩, houtside.trans (outside?_stripFlatGenerics t 0)⟩
  | case2 t less hlt =>
    have hsame : less = t := (stripFlatGenerics_sublist t).eq_of_length_le (Nat.le_of_not_lt hlt)
    rw [hsame]
    exact ⟨hsame, ⟨0, rfl⟩, rfl⟩

/-- Where no innermost argument list is left, no bracket is opened that is closed again. -/
lemma Bare.eq_of_outside? (hbare : Bare t) (h : outside? depth t = some u) :
    (depth = 0 → t = u) ∧ (depth ≠ 0 → ∃ inner, (∀ c ∈ inner, isFlat c = true) ∧ inner ++ ['>'] <+: t) := by
  induction t generalizing depth u with
  | nil =>
    rw [outside?] at h
    split_ifs at h with hdepth
    exact ⟨fun _ => Option.some.inj h, fun hne => absurd hdepth hne⟩
  | cons c t ih =>
    have hrest : Bare t := fun inner hinner => hbare inner (infix_cons hinner)
    rcases outside?_cases h with ⟨rfl, h⟩ | ⟨outer, rfl, rfl, h⟩ | ⟨hflat, w, hw, rfl⟩
    · obtain ⟨inner, hinner, hfirst⟩ := (ih hrest h).2 (Nat.succ_ne_zero _)
      obtain ⟨d, hd, hflat⟩ := hbare inner (cons_prefix_cons.2 ⟨rfl, hfirst⟩).isInfix
      cases (hinner d hd).symm.trans hflat
    · exact ⟨fun h => (Nat.succ_ne_zero _ h).elim, fun _ => ⟨[], forall_mem_nil _, t, rfl⟩⟩
    · refine ⟨fun hdepth => ?_, fun hdepth => ?_⟩
      · rw [if_pos hdepth, (ih hrest hw).1 hdepth]
        rfl
      · obtain ⟨inner, hinner, hfirst⟩ := (ih hrest hw).2 hdepth
        exact ⟨c :: inner, forall_mem_cons.2 ⟨hflat, hinner⟩, cons_prefix_cons.2 ⟨rfl, hfirst⟩⟩

/-- **Matching brackets** are removed with what they enclose. -/
lemma stripGenerics_of_outside? (h : outside? 0 t = some u) : stripGenerics t = u := by
  obtain ⟨hfixed, -, houtside⟩ := stripGenerics_ends t
  exact ((stripFlatGenerics_eq_self_iff.1 hfixed).eq_of_outside? (houtside.trans h)).1 rfl

/-- **Generic argument lists are removed** by passes that end, at a subsequence of the text without
any innermost list, which stays as it is; where the brackets match it is what stands outside of
them. -/
theorem generics_removed (t : Text) :
    (∃ passes, stripFlatGenerics^[passes] t = stripGenerics t ∧
        stripFlatGenerics (stripGenerics t) = stripGenerics t) ∧
      Bare (stripGenerics t) ∧ stripGenerics (stripGenerics t) = stripGenerics t ∧ stripGenerics t <+ t ∧
      ('(' ∉ t → ')' ∉ t → (∀ p ∈ t.inits, p.count '>' ≤ p.count '<') → t.count '<' = t.count '>' →
        outside? 0 t = some (stripGenerics t)) := by
  obtain ⟨hfixed, ⟨passes, hpasses⟩, -⟩ := stripGenerics_ends t
  refine ⟨⟨passes, hpasses, hfixed⟩, stripFlatGenerics_eq_self_iff.1 hfixed, ?_, stripGenerics_sublist t,
    fun hopen hclose hnested htotal => ?_⟩
  · rw [stripGenerics, hfixed, if_neg (Nat.lt_irrefl _)]
  · obtain ⟨u, hu⟩ : ∃ u, outside? 0 t = some u :=
      exists_outside? hopen hclose (by simpa using hnested) (by simpa using htotal)
    rw [hu, stripGenerics_of_outside? hu]

theorem generics_removed_nested :
    (∀ p ∈ "A<B<C>,D>x<E>".toList.inits, p.count '>' ≤ p.count '<') ∧ stripGenerics "A<B<C>,D>x<E>" = "Ax" := by
  have hnested : ∀ p ∈ "A<B<C>,D>x<E>".toList.inits, p.count '>' ≤ p.count '<' := by decide
  have hremoved := (generics_removed "A<B<C>,D>x<E>").2.2.2.2 (by decide) (by decide) hnested (by decide)
  exact ⟨hnested, Option.some.inj (hremoved.symm.trans (by decide))⟩

end Restage.Java
