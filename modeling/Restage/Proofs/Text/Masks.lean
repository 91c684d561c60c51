import Mathlib.Data.List.Infix
import Restage.Text.Mask
import Restage.Text.Word

/-!
# What the mask shows

A reader that starts in code is in code again after a text exactly if the text leaves no literal
open, and then the mask of what follows is read on its own (`mask_append`).  A character that is
neither a quote nor a space is shown only where it stands in code, so every place at which the mask
shows such a character cuts the text in two (`exists_of_mask_eq`).  The mask is read in the same
states as the text, so it is its own mask (`maskFrom_maskFrom`).
-/

namespace Restage.Text

open List

variable {t : Text} {c : Char} {s : Quoting}

lemma after_append (s : Quoting) (t u : Text) : s.after (t ++ u) = (s.after t).after u :=
  foldl_append

lemma mask_append (h : Quoting.after .code t = .code) (u : Text) :
    mask (t ++ u) = mask t ++ mask u := by
  rw [mask, maskFrom_append, h, mask, mask]

lemma length_mask (t : Text) : (mask t).length = t.length := length_maskFrom .code t

lemma Quoting.step_code (h : isQuote c = false) : step .code c = .code := by
  rw [step, h]
  rfl

lemma after_of_forall (h : ∀ c ∈ t, isQuote c = false) : Quoting.after .code t = .code := by
  induction t with
  | nil => rfl
  | cons c t ih =>
    rw [forall_mem_cons] at h
    rw [Quoting.after, foldl_cons, Quoting.step_code h.1]
    exact ih h.2

lemma mask_of_forall (h : ∀ c ∈ t, isQuote c = false) : mask t = t := by
  induction t with
  | nil => rfl
  | cons c t ih =>
    rw [forall_mem_cons] at h
    rw [mask, maskFrom_cons, Quoting.step_code h.1]
    exact congrArg (c :: ·) (ih h.2)

lemma isQuote_eq_false_of_isWord (h : isWord c = true) : isQuote c = false := by
  by_contra hquote
  rw [Bool.not_eq_false, isQuote, Bool.or_eq_true, Bool.or_eq_true, beq_iff_eq, beq_iff_eq,
    beq_iff_eq] at hquote
  rcases hquote with (rfl | rfl) | rfl <;> exact absurd h (by decide)

/-! ## Literals are opened by quotes -/

/-- The literal that a reader is in was opened by a quote. -/
def Quoting.Proper : Quoting → Prop
  | code => True
  | inside q | escaped q => isQuote q = true

lemma Quoting.Proper.step (h : s.Proper) (c : Char) : (s.step c).Proper := by
  cases s with
  | code =>
    rw [Quoting.step]
    split_ifs with hquote
    · exact hquote
    · exact h
  | inside q =>
    rw [Quoting.step]
    split_ifs
    · exact h
    · trivial
    · exact h
  | escaped q => exact h

lemma Quoting.Proper.after (h : s.Proper) (t : Text) : (s.after t).Proper := by
  induction t generalizing s with
  | nil => exact h
  | cons c t ih => exact ih (h.step c)

lemma Quoting.Proper.shown_eq_iff (h : s.Proper) {d : Char} (hquote : isQuote c = false)
    (hspace : c ≠ ' ') : s.shown d = c ↔ s = .code ∧ d = c := by
  cases s with
  | code => exact ⟨fun hd => ⟨rfl, hd⟩, fun hd => hd.2⟩
  | inside q =>
    refine iff_of_false (fun hd => ?_) fun hd => by cases hd.1
    rw [shown] at hd
    split_ifs at hd with hslash hend
    · exact hspace hd.symm
    · have hq : isQuote q = true := h
      rw [← hend, hd, hquote] at hq
      cases hq
    · exact hspace hd.symm
  | escaped q => exact iff_of_false (fun hd => hspace hd.symm) fun hd => by cases hd.1

lemma exists_of_mask_eq {a b : Text} (hquote : isQuote c = false) (hspace : c ≠ ' ')
    (h : mask t = a ++ c :: b) :
    ∃ x y, t = x ++ c :: y ∧ Quoting.after .code x = .code ∧ mask x = a ∧ mask y = b := by
  have hlength : t.length = a.length + (b.length + 1) := by
    rw [← length_mask t, h]
    simp
  obtain ⟨x, d, y, rfl, hx⟩ : ∃ x d y, t = x ++ d :: y ∧ x.length = a.length := by
    have hlt : a.length < t.length := by omega
    refine ⟨t.take a.length, t.get ⟨a.length, hlt⟩, t.drop (a.length + 1), ?_, ?_⟩
    · rw [get_eq_getElem, cons_getElem_drop_succ, take_append_drop]
    · rw [length_take, min_eq_left (le_of_lt hlt)]
  rw [mask, maskFrom_append] at h
  have hsame : (maskFrom .code x).length = a.length := (length_maskFrom _ x).trans hx
  obtain ⟨hmask, hshown, hrest⟩ : maskFrom .code x = a ∧ _ = c ∧ _ = b := by
    obtain ⟨hmask, hcons⟩ := append_inj h hsame
    exact ⟨hmask, cons.inj hcons⟩
  have hproper : (Quoting.after .code x).Proper := Quoting.Proper.after (s := .code) trivial x
  obtain ⟨hcode, rfl⟩ := (hproper.shown_eq_iff hquote hspace).1 hshown
  rw [hcode, Quoting.step_code hquote] at hrest
  exact ⟨x, y, rfl, hcode, hmask, hrest⟩

lemma mask_append_cons {x y : Text} (hquote : isQuote c = false)
    (hcode : Quoting.after .code x = .code) : mask (x ++ c :: y) = mask x ++ c :: mask y := by
  rw [mask_append hcode, mask, mask, maskFrom_cons, Quoting.step_code hquote]
  rfl

/-! ## The mask of a mask -/

/-- The state behind one more character that does not matter. -/
def Quoting.settled : Quoting → Quoting
  | escaped q => inside q
  | s => s

lemma Quoting.step_settled (h : s.Proper) (hquote : isQuote c = false) (hslash : c ≠ '\\') : s.step c = s.settled ∧ s.settled.step c = s.settled := by
  have hinside : ∀ q, isQuote q = true → step (.inside q) c = .inside q := by
    intro q hq
    rw [step, if_neg hslash, if_neg (by rintro rfl; rw [hq] at hquote; cases hquote)]
  cases s with
  | code => exact ⟨step_code hquote, step_code hquote⟩
  | inside q => exact ⟨hinside q h, hinside q h⟩
  | escaped q => exact ⟨rfl, hinside q h⟩

/-- The mask is read in the same states as the text, but for the backslashes that it does not
show. -/
lemma Quoting.shown_shown (h : s.Proper) (c : Char) :
    s.settled.shown (s.shown c) = s.shown c ∧ s.settled.step (s.shown c) = (s.step c).settled := by
  have hblank : ∀ q, isQuote q = true → shown (inside q) ' ' = ' ' ∧ step (inside q) ' ' = inside q :=
    fun q hq => ⟨by simp [shown], (step_settled (s := .inside q) hq rfl (by decide)).1⟩
  cases s with
  | code =>
    refine ⟨rfl, ?_⟩
    change step code c = (step code c).settled
    rw [step]
    split_ifs <;> rfl
  | inside q =>
    by_cases hslash : c = '\\'
    · subst hslash
      exact hblank q h
    by_cases hend : c = q
    · simp [settled, shown, step, hend ▸ hslash, hend]
    · have hshown : shown (inside q) c = ' ' := by rw [shown, if_neg hslash, if_neg hend]
      have hstep : step (inside q) c = inside q := by rw [step, if_neg hslash, if_neg hend]
      rw [hshown, hstep]
      exact hblank q h
  | escaped q => exact hblank q h

lemma maskFrom_maskFrom (h : s.Proper) (t : Text) :
    maskFrom s.settled (maskFrom s t) = maskFrom s t := by
  induction t generalizing s with
  | nil => rfl
  | cons c t ih =>
    obtain ⟨hshown, hstep⟩ := Quoting.shown_shown h c
    rw [maskFrom_cons, maskFrom_cons, hshown, hstep, ih (h.step c)]

lemma shown_eq_or (s : Quoting) (c : Char) : s.shown c = c ∨ s.shown c = ' ' := by
  cases s with
  | code => exact .inl rfl
  | inside q =>
    rw [Quoting.shown]
    split_ifs
    · exact .inr rfl
    · exact .inl rfl
    · exact .inr rfl
  | escaped q => exact .inr rfl

lemma forall₂_maskFrom (s : Quoting) (t : Text) :
    Forall₂ (fun shown c => shown = c ∨ shown = ' ') (maskFrom s t) t := by
  induction t generalizing s with
  | nil => exact .nil
  | cons c t ih => exact .cons (shown_eq_or s c) (ih (s.step c))

/-- **Masking** keeps every position and blanks characters out, a mask is its own mask and grows
with the text, and what follows is masked on its own exactly where no literal is open. -/
theorem mask_laws (t : Text) :
    (mask t).length = t.length ∧ Forall₂ (fun shown c => shown = c ∨ shown = ' ') (mask t) t ∧
      mask (mask t) = mask t ∧ (∀ u, mask t <+: mask (t ++ u)) ∧
      ((∀ u, mask (t ++ u) = mask t ++ mask u) ↔ Quoting.after .code t = .code) := by
  refine ⟨length_mask t, forall₂_maskFrom .code t, maskFrom_maskFrom (s := .code) trivial t, fun u => ?_,
    fun h => ?_, fun h u => mask_append h u⟩
  · rw [mask, mask, maskFrom_append]
    exact prefix_append _ _
  · -- Inside a literal a letter is blanked out, and on its own it is not.
    have hletter := h ['x']
    rw [mask, maskFrom_append] at hletter
    have hshown := (cons.inj (append_cancel_left hletter)).1
    have hproper : (Quoting.after .code t).Proper := Quoting.Proper.after (s := .code) trivial t
    exact ((hproper.shown_eq_iff (c := 'x') rfl (by decide)).1 hshown).1

end Restage.Text
