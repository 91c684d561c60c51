import Mathlib.Data.List.Lex
import Mathlib.Data.List.Nodup
import Restage.Text.Basic

/-!
# The order of texts

`precedes` compares texts by the code points of their characters, so it is the order of lists of
numbers.  Lists are sorted by a key that is a text, and what is sorted this way does not depend on
the order it came in, as long as no two keys are equal.
-/

namespace Restage.Text

open List

lemma precedes_iff {s t : Text} : precedes s t = true ↔ s.map Char.toNat < t.map Char.toNat := by
  induction s generalizing t with
  | nil => cases t <;> simp [precedes]
  | cons c s ih =>
    cases t with
    | nil => simp [precedes]
    | cons d t =>
      rw [map_cons, map_cons, cons_lt_cons_iff, ← ih, Char.toNat_inj]
      simp [precedes]

lemma precedes_eq_false_iff {s t : Text} :
    precedes s t = false ↔ t.map Char.toNat ≤ s.map Char.toNat := by
  rw [Bool.eq_false_iff, Ne, precedes_iff, not_lt]

lemma eq_of_not_precedes {s t : Text} (hst : precedes s t = false) (hts : precedes t s = false) :
    s = t :=
  map_injective_iff.2 (fun _ _ => Char.toNat_inj.1)
    (le_antisymm (precedes_eq_false_iff.1 hts) (precedes_eq_false_iff.1 hst))

section Sorting

variable {α : Type} (key : α → Text)

lemma pairwise_sorted (l : List α) :
    (l.mergeSort fun a b => !precedes (key b) (key a)).Pairwise fun a b =>
      precedes (key b) (key a) = false := by
  have hle : ∀ a b, (!precedes (key b) (key a)) = true ↔
      (key a).map Char.toNat ≤ (key b).map Char.toNat := by
    intro a b
    rw [Bool.not_eq_true', precedes_eq_false_iff]
  refine (pairwise_mergeSort ?_ ?_ l).imp fun h => (Bool.not_eq_true' _).mp h
  · intro a b c hab hbc
    exact (hle a c).2 (le_trans ((hle a b).1 hab) ((hle b c).1 hbc))
  · intro a b
    rw [Bool.or_eq_true, hle, hle]
    exact le_total _ _

lemma sorted_eq_of_perm {l l' : List α} (h : l.Perm l') (hkeys : (l.map key).Nodup) :
    (l.mergeSort fun a b => !precedes (key b) (key a)) =
      l'.mergeSort fun a b => !precedes (key b) (key a) := by
  refine Perm.eq_of_pairwise ?_ (pairwise_sorted key l) (pairwise_sorted key l')
    (((mergeSort_perm l _).trans h).trans (mergeSort_perm l' _).symm)
  intro a b ha hb hab hba
  have hb : b ∈ l := h.symm.subset (mem_mergeSort.1 hb)
  exact inj_on_of_nodup_map hkeys (mem_mergeSort.1 ha) hb (eq_of_not_precedes hba hab)

end Sorting

end Restage.Text
