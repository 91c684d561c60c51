import Restage.Java.Call
import Restage.Proofs.Text.Readers

/-!
# Plain text

Plain text has no equals sign and opens no bracket.  What the readers of types and modifiers pass
over is plain (`Skips`), so what they leave is an end of the text, and the first equals sign or
bracket is in it.
-/

namespace Restage.Java

open Text List Option

variable {t : Text}

/-- Whether a character neither opens a bracket nor is an equals sign. -/
def isPlain (c : Char) : Bool := !(c == '(' || c == '\x7b' || c == '=')

lemma isPlain_of {p : Char → Bool} (hp : ∀ d ∈ ['(', '\x7b', '='], p d = false) {c : Char} (h : p c = true) :
    isPlain c = true := by
  have hne : ∀ d ∈ ['(', '\x7b', '='], c ≠ d := by
    rintro d hd rfl
    rw [hp c hd] at h
    cases h
  simp [isPlain, hne]

lemma isPlain_of_isWord {c : Char} : isWord c = true → isPlain c = true := isPlain_of (by decide)

lemma isPlain_of_isBlank {c : Char} : isBlank c = true → isPlain c = true := isPlain_of (by decide)

def Plain (t : Text) : Prop := t.all isPlain = true

instance (t : Text) : Decidable (Plain t) := inferInstanceAs (Decidable (_ = _))

namespace Plain

lemma of_word (h : isWordText t = true) : Plain t :=
  List.all_eq_true.2 fun c hc => isPlain_of_isWord (all_isWord h c hc)

lemma of_blanks (h : ∀ c ∈ t, isBlank c = true) : Plain t :=
  List.all_eq_true.2 fun c hc => isPlain_of_isBlank (h c hc)

lemma append {u : Text} (h : Plain t) (h' : Plain u) : Plain (t ++ u) := by
  rw [Plain, all_append, h, h']
  rfl

lemma dropWhile (h : Plain t) (r : Text) : (t ++ r).dropWhile isPlain = r.dropWhile isPlain :=
  dropWhile_append_of_pos (List.all_eq_true.1 h)

end Plain

/-- Plain text stands before what is left. -/
def Skips (t r : Text) : Prop := ∃ start, t = start ++ r ∧ Plain start

namespace Skips

variable {r r' : Text}

lemma suffix (h : Skips t r) : r <:+ t := by
  obtain ⟨start, rfl, -⟩ := h
  exact suffix_append _ _

lemma refl (t : Text) : Skips t t := ⟨[], rfl, by decide⟩

lemma trans (h : Skips t r) (h' : Skips r r') : Skips t r' := by
  obtain ⟨start, rfl, hstart⟩ := h
  obtain ⟨start', rfl, hstart'⟩ := h'
  exact ⟨start ++ start', by rw [append_assoc], hstart.append hstart'⟩

lemma literal? {w : Text} (hw : Plain w) (h : Text.literal? w t = some r) : Skips t r :=
  ⟨w, literal?_eq_some.1 h, hw⟩

lemma blanks (t : Text) : Skips t (blanks t) := by
  obtain ⟨gap, ht, hgap⟩ := blanks_eq t
  exact ⟨gap, ht, .of_blanks hgap⟩

lemma someBlanks? (h : Text.someBlanks? t = some r) : Skips t r := by
  obtain ⟨gap, ht, -, hgap⟩ := someBlanks?_eq_some h
  exact ⟨gap, ht, .of_blanks hgap⟩

lemma run? {p : Char → Bool} (hp : ∀ c, p c = true → isPlain c = true) {read : Text}
    (h : Text.run? p t = some (read, r)) : Skips t r := by
  obtain ⟨ht, -, hread⟩ := run?_eq_some h
  exact ⟨read, ht, all_eq_true.2 fun c hc => hp c (hread c hc)⟩

lemma cons {c : Char} (hc : isPlain c = true) (h : Skips t r) : Skips (c :: t) r := by
  obtain ⟨start, rfl, hstart⟩ := h
  exact ⟨c :: start, rfl, by rw [Plain, all_cons, hc]; exact hstart⟩

lemma genericEnds (h : r ∈ Java.genericEnds t) : Skips t r := by
  induction t with
  | nil => cases h
  | cons c t ih =>
    rw [Java.genericEnds] at h
    split_ifs at h with hends hclose
    · cases h
    · subst hclose
      rcases mem_append.1 h with h | h
      · exact .cons (by decide) (ih h)
      · rw [mem_singleton.1 h]
        exact .cons (by decide) (.refl t)
    · refine .cons ?_ (ih h)
      simp only [endsGenerics, Bool.or_eq_true, not_or] at hends
      simp [isPlain, hends]

lemma arrayBrackets? (h : Java.arrayBrackets? t = some r) : Skips t r := by
  rw [Java.arrayBrackets?] at h
  split at h
  next inside hinside =>
    split at h
    next rest hrest =>
      cases h
      have hopen : Skips t ('[' :: inside) := hinside ▸ blanks t
      have hclose : Skips inside (']' :: r) := hrest ▸ blanks inside
      exact hopen.trans (.cons (by decide) (hclose.trans (.cons (by decide) (.refl r))))
    · cases h
  · cases h

lemma arraySuffix (t : Text) : Skips t (Java.arraySuffix t) := by
  induction t using arraySuffix.induct with
  | case1 t h =>
    rw [Java.arraySuffix, h]
    exact .refl t
  | case2 t rest h ih =>
    rw [Java.arraySuffix, h]
    exact (arrayBrackets? h).trans ih

lemma typeEnds (h : r ∈ Java.typeEnds t) : Skips t r := by
  rw [Java.typeEnds] at h
  split at h
  · cases h
  next read rest hrun =>
    refine (run? (fun _ => isPlain_of (by decide)) hrun).trans ?_
    rcases mem_append.1 h with h | h
    · split at h
      next inner hinner =>
        obtain ⟨u, hu, rfl⟩ := mem_map.1 h
        have hopen : Skips rest ('<' :: inner) := hinner ▸ blanks rest
        exact hopen.trans (.cons (by decide) ((genericEnds hu).trans (arraySuffix u)))
      · cases h
    · rw [mem_singleton.1 h]
      exact arraySuffix rest

lemma afterFinal (h : r ∈ Java.afterFinal t) : Skips t r := by
  rcases mem_append.1 h with h | h
  · obtain ⟨rest, hfinal, hrest⟩ := bind_eq_some_iff.1 (mem_toList.1 h)
    exact (literal? (by decide) hfinal).trans (someBlanks? hrest)
  · rw [mem_singleton.1 h]
    exact .refl t

lemma word? {name : Text} (h : Text.word? t = some (name, r)) : Skips t r := by
  obtain ⟨ht, hname, -⟩ := word?_eq_some h
  exact ⟨name, ht, .of_word hname⟩

end Skips

end Restage.Java
