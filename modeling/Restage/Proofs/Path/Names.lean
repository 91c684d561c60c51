import Mathlib.Data.List.Infix
import Mathlib.Data.List.TakeWhile
import Restage.Path

/-!
# The names of a path

A text and its parts between slashes say the same (`join_parts`, `parts_join`), so a path can be
read back from the names that it is made of (`parse_join`).  A name is its stem and its suffix, and
the suffix has one dot, at its start (`stem_append_suffix`, `suffixOf_cases`).
-/

namespace Restage

open List

variable {t : Text}

namespace Text

/-! ## Parts -/

variable {sep : Char}

lemma parts_ne_nil (sep : Char) (t : Text) : parts sep t ≠ [] := by
  cases t with
  | nil => exact cons_ne_nil _ _
  | cons c t =>
    rw [parts]
    split_ifs
    · exact cons_ne_nil _ _
    · split <;> exact cons_ne_nil _ _

lemma parts_cons_sep (t : Text) : parts sep (sep :: t) = [] :: parts sep t := by
  rw [parts, if_pos rfl]

lemma parts_cons_of_ne {c : Char} (hc : c ≠ sep) {first : Text} {rest : List Text}
    (h : parts sep t = first :: rest) : parts sep (c :: t) = (c :: first) :: rest := by
  rw [parts, if_neg hc, h]

lemma exists_parts_eq_cons (sep : Char) (t : Text) : ∃ first rest, parts sep t = first :: rest :=
  exists_cons_of_ne_nil (parts_ne_nil sep t)

lemma join_parts (sep : Char) (t : Text) : join [sep] (parts sep t) = t := by
  induction t with
  | nil => rfl
  | cons c t ih =>
    obtain ⟨first, rest, hparts⟩ := exists_parts_eq_cons sep t
    by_cases hc : c = sep
    · rw [hc, parts_cons_sep, hparts, join, intercalate_cons_cons, ← hparts]
      exact congrArg (sep :: ·) ih
    · rw [parts_cons_of_ne hc hparts]
      rw [hparts] at ih
      cases rest with
      | nil => simpa [join] using ih
      | cons second rest =>
        rw [← ih]
        rfl

lemma notMem_of_mem_parts {part : Text} (h : part ∈ parts sep t) : sep ∉ part := by
  induction t generalizing part with
  | nil =>
    rw [mem_singleton.1 h]
    exact not_mem_nil
  | cons c t ih =>
    by_cases hc : c = sep
    · rw [hc, parts_cons_sep, mem_cons] at h
      rcases h with rfl | h
      · exact not_mem_nil
      · exact ih h
    · obtain ⟨first, rest, hparts⟩ := exists_parts_eq_cons sep t
      rw [hparts] at ih
      rw [parts_cons_of_ne hc hparts, mem_cons] at h
      rcases h with rfl | h
      · rw [mem_cons, not_or]
        exact ⟨Ne.symm hc, ih (by simp)⟩
      · exact ih (by simp [h])

lemma parts_of_notMem (h : sep ∉ t) : parts sep t = [t] := by
  induction t with
  | nil => rfl
  | cons c t ih =>
    rw [mem_cons, not_or] at h
    exact parts_cons_of_ne (Ne.symm h.1) (ih h.2)

lemma parts_append_cons (h : sep ∉ t) (rest : Text) :
    parts sep (t ++ sep :: rest) = t :: parts sep rest := by
  induction t with
  | nil => exact parts_cons_sep rest
  | cons c t ih =>
    rw [mem_cons, not_or] at h
    exact parts_cons_of_ne (Ne.symm h.1) (ih h.2)

lemma parts_append_sep (t rest : Text) :
    parts sep (t ++ sep :: rest) = parts sep t ++ parts sep rest := by
  induction t with
  | nil => exact parts_cons_sep rest
  | cons c t ih =>
    obtain ⟨first, others, hparts⟩ := exists_parts_eq_cons sep t
    rw [hparts] at ih
    by_cases hc : c = sep
    · rw [hc, cons_append, parts_cons_sep, parts_cons_sep, hparts, ih]
      rfl
    · rw [parts_cons_of_ne hc hparts]
      exact parts_cons_of_ne hc ih

lemma parts_join {names : List Text} (hne : names ≠ []) (h : ∀ name ∈ names, sep ∉ name) :
    parts sep (join [sep] names) = names := by
  induction names with
  | nil => exact absurd rfl hne
  | cons first rest ih =>
    rw [forall_mem_cons] at h
    cases rest with
    | nil => simpa [join] using parts_of_notMem h.1
    | cons second rest =>
      refine (parts_append_cons h.1 _).trans ?_
      exact congrArg (first :: ·) (ih (cons_ne_nil _ _) h.2)

lemma join_concat {names : List Text} (hne : names ≠ []) (name : Text) :
    join [sep] (names ++ [name]) = join [sep] names ++ sep :: name := by
  induction names with
  | nil => exact absurd rfl hne
  | cons first rest ih =>
    cases rest with
    | nil => simp [join]
    | cons second rest =>
      have hrest := ih (cons_ne_nil _ _)
      rw [cons_append, cons_append, join, intercalate_cons_cons, join,
        intercalate_cons_cons, append_assoc, append_assoc, append_assoc]
      exact congrArg (fun t => first ++ ([sep] ++ t)) hrest

/-! ## The last occurrence of a character -/

lemma exists_eq_append_cons_notMem (h : sep ∈ t) :
    ∃ before after, t = before ++ sep :: after ∧ sep ∉ after := by
  obtain ⟨after, before, hsplit, hnot⟩ := eq_append_cons_of_mem (mem_reverse.2 h)
  refine ⟨before.reverse, after.reverse, ?_, by rwa [mem_reverse]⟩
  rw [← reverse_reverse t, hsplit]
  simp

lemma suffix_of_suffix_append_cons {before last : Text} (h : t <:+ before ++ sep :: last) (hsep : sep ∉ t) :
    t <:+ last := by
  have hlast : sep :: last <:+ before ++ sep :: last := suffix_append _ _
  rcases suffix_or_suffix_of_suffix h hlast with hshort | hlong
  · rcases suffix_cons_iff.1 hshort with rfl | hshort
    · exact absurd (mem_cons_self ..) hsep
    · exact hshort
  · exact absurd (hlong.mem (mem_cons_self ..)) hsep

lemma beforeLast?_of_notMem (h : sep ∉ t) : beforeLast? sep t = none := by
  have hall : t.reverse.dropWhile (· ≠ sep) = [] := by
    rw [dropWhile_eq_nil_iff]
    intro c hc
    rw [mem_reverse] at hc
    exact decide_eq_true fun heq => h (heq ▸ hc)
  rw [beforeLast?, hall]

lemma beforeLast?_append_cons {rest : Text} (h : sep ∉ rest) (t : Text) :
    beforeLast? sep (t ++ sep :: rest) = some t := by
  have hstop : (t ++ sep :: rest).reverse.dropWhile (· ≠ sep) = sep :: t.reverse := by
    rw [reverse_append, reverse_cons, append_assoc, dropWhile_append_of_pos]
    · simp
    · intro c hc
      rw [mem_reverse] at hc
      exact decide_eq_true fun heq => h (heq ▸ hc)
  rw [beforeLast?, hstop]
  exact congrArg some (reverse_reverse t)

lemma beforeLast?_eq_some_iff {before : Text} :
    beforeLast? sep t = some before ↔ ∃ after, t = before ++ sep :: after ∧ sep ∉ after := by
  constructor
  · intro h
    by_cases hmem : sep ∈ t
    · obtain ⟨first, after, rfl, hnot⟩ := exists_eq_append_cons_notMem hmem
      rw [beforeLast?_append_cons hnot] at h
      cases h
      exact ⟨after, rfl, hnot⟩
    · rw [beforeLast?_of_notMem hmem] at h
      cases h
  · rintro ⟨after, rfl, hnot⟩
    exact beforeLast?_append_cons hnot before

end Text

namespace Path

open Text

/-! ## Suffixes -/

lemma suffixOf_cases (name : Text) :
    suffixOf name = [] ∨ ∃ stem ending, name = stem ++ '.' :: ending ∧ stem ≠ [] ∧ ending ≠ [] ∧
      '.' ∉ ending ∧ suffixOf name = '.' :: ending := by
  rw [suffixOf]
  split
  · next c stem hbefore =>
      obtain ⟨ending, hname, hdots⟩ := beforeLast?_eq_some_iff.1 hbefore
      have hdrop : name.drop (c :: stem).length = '.' :: ending := by
        rw [hname, drop_left]
      rw [hdrop]
      cases ending with
      | nil => exact .inl rfl
      | cons d ending =>
        exact .inr ⟨c :: stem, d :: ending, hname, cons_ne_nil _ _, cons_ne_nil _ _, hdots,
          if_pos (by simp)⟩
  · exact .inl rfl

/-- The last name without its suffix. -/
def stem (p : Path) : Text := p.name.take (p.name.length - p.suffix.length)

lemma stem_append_suffix (p : Path) : p.stem ++ p.suffix = p.name := by
  rw [stem, suffix]
  rcases suffixOf_cases p.name with hnone | ⟨stem, ending, hname, -, -, -, hsuffix⟩
  · simp [hnone]
  · rw [hsuffix, hname, length_append, Nat.add_sub_cancel, take_left]

/-! ## Reading -/

/-- A name that can stand in a path. -/
def IsName (name : Text) : Prop := name ≠ [] ∧ name ≠ ".".toList ∧ '/' ∉ name

instance (name : Text) : Decidable (IsName name) :=
  inferInstanceAs (Decidable (name ≠ [] ∧ name ≠ ".".toList ∧ '/' ∉ name))

lemma rootOf_eq_nil (h : t.head? ≠ some '/') : rootOf t = [] := by
  cases t with
  | nil => rfl
  | cons c t =>
    have hc : c ≠ '/' := fun heq => h (congrArg some heq)
    simp [rootOf, startsWith, Ne.symm hc]

lemma parse_join {names : List Text} (h : ∀ name ∈ names, IsName name) :
    parse (join "/" names) = ⟨[], names⟩ := by
  cases names with
  | nil => rfl
  | cons first rest =>
    have hroot : rootOf (join "/" (first :: rest)) = [] := by
      obtain ⟨hne, -, hslash⟩ := h first (by simp)
      obtain ⟨c, t, rfl⟩ := exists_cons_of_ne_nil hne
      refine rootOf_eq_nil ?_
      have hhead : (join "/" ((c :: t) :: rest)).head? = some c := by
        cases rest <;> simp [join]
      rw [hhead]
      exact fun heq => hslash (Option.some.inj heq ▸ mem_cons_self ..)
    have hparts : Text.parts '/' (join "/" (first :: rest)) = first :: rest :=
      parts_join (cons_ne_nil _ _) fun name hname => (h name hname).2.2
    rw [parse, hroot, hparts, filter_eq_self.2]
    intro name hname
    obtain ⟨hne, hdot, -⟩ := h name hname
    exact Bool.and_eq_true_iff.2 ⟨by simpa using hne, decide_eq_true hdot⟩

end Path

end Restage
