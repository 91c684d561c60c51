import Mathlib.Data.List.DropRight
import Restage.Text.Basic

/-!
# Trimming and exchanging

Trimming takes blanks off the ends of a text and leaves a part of it (`trim_isInfix`).  A character
that is not blank stops it on either side, so that it works on what is before and behind that
character.

Literals are written by exchanging characters, first the backslashes and then the quotes.  The two
exchanges come to one pass over the text, which puts a backslash in front of both (`slashed`).
-/

namespace Restage.Text

open List

/-! ## Trimming -/

variable {t : Text} {c : Char}

lemma dropWhile_append_cons {p : Char → Bool} (hc : p c = false) (a b : Text) :
    (a ++ c :: b).dropWhile p = a.dropWhile p ++ c :: b := by
  induction a with
  | nil => simp [hc]
  | cons d a ih => by_cases hd : p d <;> simp [hd, ih]

lemma trimLeft_append_cons (hc : isBlank c = false) (a b : Text) :
    trimLeft (a ++ c :: b) = trimLeft a ++ c :: b :=
  dropWhile_append_cons hc a b

lemma trimRight_append_cons (hc : isBlank c = false) (a b : Text) :
    trimRight (a ++ c :: b) = a ++ c :: trimRight b := by
  have hreverse : (a ++ c :: b).reverse = b.reverse ++ c :: a.reverse := by simp
  rw [trimRight, hreverse, dropWhile_append_cons hc, trimRight]
  simp

lemma trimRight_cons (hc : isBlank c = false) (r : Text) : trimRight (c :: r) = c :: trimRight r :=
  trimRight_append_cons hc [] r

lemma trimRight_eq (t : Text) : ∃ gap : Text, t = trimRight t ++ gap ∧ ∀ c ∈ gap, isBlank c = true := by
  refine ⟨(t.reverse.takeWhile isBlank).reverse, ?_, fun c hc => ?_⟩
  · rw [trimRight, ← reverse_append, takeWhile_append_dropWhile, reverse_reverse]
  · exact mem_takeWhile_imp (mem_reverse.1 hc)

lemma isBlank_head_of_trim {line r : Text} (h : trim line = c :: r) :
    isBlank c = false := by
  cases hl : trimLeft line with
  | nil =>
    rw [trim, hl] at h
    cases h
  | cons d u =>
    have hdrop : line.dropWhile isBlank = d :: u := hl
    have hd : isBlank d = false := by
      have hhead := head?_dropWhile_not isBlank line
      rw [hdrop] at hhead
      exact hhead
    rw [trim, hl, trimRight_cons hd] at h
    cases h
    exact hd

lemma trim_eq_self (hhead : ∀ c ∈ t.head?, isBlank c = false)
    (hlast : ∀ c ∈ t.getLast?, isBlank c = false) : trim t = t := by
  have hleft : ∀ u : Text, (∀ c ∈ u.head?, isBlank c = false) → u.dropWhile isBlank = u := by
    intro u hu
    cases u with
    | nil => rfl
    | cons c r => exact dropWhile_cons_of_neg (by simp [hu c rfl])
  rw [trim, trimLeft, hleft t hhead, trimRight, hleft t.reverse (by simpa using hlast), reverse_reverse]

lemma trim_of_allBlank (h : allBlank t = true) : trim t = [] := by
  have hleft : trimLeft t = [] := dropWhile_eq_nil_iff.2 (all_eq_true.1 h)
  rw [trim, hleft]
  rfl

lemma trim_cons_blank (t : Text) : trim (' ' :: t) = trim t := rfl

lemma trim_trim (t : Text) : trim (trim t) = trim t := by
  refine trim_eq_self (fun c hc => ?_) fun c hc => ?_
  · obtain ⟨r, hr⟩ := head?_eq_some_iff.1 hc
    exact isBlank_head_of_trim hr
  · have hlast := head?_dropWhile_not isBlank (trimLeft t).reverse
    rw [trim, trimRight, getLast?_reverse] at hc
    rw [hc] at hlast
    exact hlast

lemma trim_trimLeft (t : Text) : trim (trimLeft t) = trim t := by
  have htwice : trimLeft (trimLeft t) = trimLeft t := dropWhile_idempotent isBlank t
  rw [trim, htwice, trim]

lemma trimLeft_trimRight (t : Text) : trimLeft (trimRight t) = trim t := by
  by_cases h : ∃ c ∈ t, isBlank c = false
  · obtain ⟨c, hmem, hc⟩ := h
    obtain ⟨x, y, rfl⟩ := append_of_mem hmem
    rw [trimRight_append_cons hc, trimLeft_append_cons hc, trim, trimLeft_append_cons hc,
      trimRight_append_cons hc]
  · have hblank : ∀ c ∈ t, isBlank c = true := by simpa using h
    have hright : t.reverse.dropWhile isBlank = [] := dropWhile_eq_nil_iff.2 (by simpa using hblank)
    rw [trim_of_allBlank (all_eq_true.2 hblank), trimRight, hright]
    rfl

lemma mem_trim (hc : isBlank c = false) (h : c ∈ t) : c ∈ trim t := by
  obtain ⟨a, b, rfl⟩ := append_of_mem h
  rw [trim, trimLeft_append_cons hc, trimRight_append_cons hc]
  simp

lemma dropEnd_isPrefix (p : Char → Bool) (t : Text) : dropEnd p t <+: t := by
  have h : t.reverse.dropWhile p <:+ t.reverse := dropWhile_suffix _
  rw [← reverse_prefix, reverse_reverse] at h
  exact h

lemma trim_isInfix (t : Text) : trim t <:+: t :=
  (dropEnd_isPrefix isBlank (trimLeft t)).isInfix.trans (dropWhile_suffix _).isInfix

lemma dropEnd_subset (p : Char → Bool) (t : Text) : dropEnd p t ⊆ t := (dropEnd_isPrefix p t).subset

lemma trim_subset (t : Text) : trim t ⊆ t := (trim_isInfix t).subset

/-! ## Exchanges -/

lemma exchangePair_cons {a b x : Char} {r : Text} (h : ¬(x = a ∧ r.head? = some b)) (new : Text) :
    exchangePair a b new (x :: r) = x :: exchangePair a b new r := by
  cases r with
  | nil => rfl
  | cons y r =>
    rw [exchangePair, if_neg]
    rintro ⟨hx, hy⟩
    exact h ⟨hx, congrArg some hy⟩

lemma exchangePair_append {a b : Char} {t : Text} (h : a ∉ t) (new rest : Text) :
    exchangePair a b new (t ++ rest) = t ++ exchangePair a b new rest := by
  induction t with
  | nil => rfl
  | cons c t ih =>
    rw [mem_cons, not_or] at h
    rw [cons_append, exchangePair_cons (fun hc => h.1 hc.1.symm), ih h.2, cons_append]

/-- A character as it stands between quotes: a backslash comes before backslashes and quotes. -/
def slashed (quote c : Char) : Text := if c = '\\' ∨ c = quote then ['\\', c] else [c]

lemma exchange_quote_exchange_slash {quote : Char} (hquote : quote ≠ '\\') (t : Text) :
    exchange quote ['\\', quote] (exchange '\\' ['\\', '\\'] t) = t.flatMap (slashed quote) := by
  rw [exchange, exchange, flatMap_assoc]
  congr 1
  funext c
  by_cases hslash : c = '\\'
  · simp [slashed, hslash, Ne.symm hquote]
  · by_cases hsame : c = quote
    · simp [slashed, hsame, hquote]
    · simp [slashed, hslash, hsame]

end Restage.Text
