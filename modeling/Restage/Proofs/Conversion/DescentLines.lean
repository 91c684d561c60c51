import Mathlib.Data.List.Chain
import Mathlib.Data.List.Nodup
import Mathlib.Data.List.Perm.Subperm
import Restage.Conversion.Lookup

/-!
# Lines of descent

The classes above a class are found by going from each class to the one that it extends.  Names are
what the sources say, so the way may lead back to a class that was met before, or to the one that it
started from; it ends there.  `ancestors_line` says which classes are found, for every table of
classes: the only line of descent that cannot be continued.
-/

namespace Restage.Conversion.Lookup

open List

variable {l : Lookup} {c : ClassInfo} {chain : List ClassInfo} {seen : List Text}

/-- A line of descent above a class: each class is extended by the one before it, no name occurs
twice or has been seen, and the class at the end has no parent with a new name. -/
structure IsLineFrom (l : Lookup) (seen : List Text) (c : ClassInfo) (chain : List ClassInfo) : Prop where
  linked : (c :: chain).IsChain fun a b => l.parent? a = some b
  distinct : (chain.map (·.name) ++ seen).Nodup
  ends : ∀ parent, l.parent? ((c :: chain).getLast (cons_ne_nil c chain)) = some parent →
    parent.name ∈ chain.map (·.name) ++ seen

lemma isLineFrom_cons_iff {parent : ClassInfo} :
    l.IsLineFrom seen c (parent :: chain) ↔
      l.parent? c = some parent ∧ l.IsLineFrom (parent.name :: seen) parent chain := by
  have hperm : (parent :: chain).map (·.name) ++ seen ~ chain.map (·.name) ++ parent.name :: seen :=
    perm_middle.symm
  constructor
  · rintro ⟨hlinked, hdistinct, hends⟩
    obtain ⟨hparent, habove⟩ := isChain_cons_cons.1 hlinked
    exact ⟨hparent, habove, hperm.nodup_iff.1 hdistinct, fun p hp => hperm.mem_iff.1 (hends p hp)⟩
  · rintro ⟨hparent, habove, hdistinct, hends⟩
    exact ⟨isChain_cons_cons.2 ⟨hparent, habove⟩, hperm.nodup_iff.2 hdistinct,
      fun p hp => hperm.mem_iff.2 (hends p hp)⟩

lemma isLineFrom_nil_iff (hseen : seen.Nodup) :
    l.IsLineFrom seen c [] ↔ ∀ parent, l.parent? c = some parent → parent.name ∈ seen :=
  ⟨fun h => h.ends, fun h => ⟨.singleton _, hseen, h⟩⟩

lemma IsLineFrom.subset_known (h : l.IsLineFrom seen c chain) : chain ⊆ l.known := by
  induction chain generalizing seen c with
  | nil => exact nil_subset _
  | cons a chain ih =>
    obtain ⟨ha, habove⟩ := isLineFrom_cons_iff.1 h
    exact cons_subset.2 ⟨mem_known_of_parent? ha, ih habove⟩

lemma ancestorsFrom_eq_iff (hseen : seen.Nodup) :
    l.ancestorsFrom seen c = chain ↔ l.IsLineFrom seen c chain := by
  fun_induction ancestorsFrom l seen c generalizing chain with
  | case1 seen c hnone =>
    cases chain with
    | nil => simp [isLineFrom_nil_iff hseen, hnone]
    | cons a chain => simp [isLineFrom_cons_iff, hnone]
  | case2 seen c parent hparent hold =>
    rw [contains_iff_mem] at hold
    cases chain with
    | nil => simp [isLineFrom_nil_iff hseen, hparent, hold]
    | cons a chain =>
      refine iff_of_false (by simp) fun h => ?_
      obtain ⟨ha, habove⟩ := isLineFrom_cons_iff.1 h
      cases hparent.symm.trans ha
      exact (nodup_cons.1 habove.distinct.of_append_right).1 hold
  | case3 seen c parent hparent hnew _ ih =>
    rw [contains_iff_mem] at hnew
    cases chain with
    | nil => simp [isLineFrom_nil_iff hseen, hparent, hnew]
    | cons a chain =>
      rw [isLineFrom_cons_iff, hparent, cons.injEq, Option.some_inj]
      refine and_congr_right ?_
      rintro rfl
      exact ih (nodup_cons.2 ⟨hnew, hseen⟩)

/-- **Ancestors** form the line of descent above a class, and the only one, whatever cycles there
are among the classes: all names in it are different and different from the name of the class, and
it ends at a class whose parent is not known or has the name of the class or a name in the line.  It
is no longer than there are classes. -/
theorem ancestors_line (l : Lookup) (c : ClassInfo) :
    (∀ chain, l.ancestors c = chain ↔ l.IsLineFrom [c.name] c chain) ∧
      (l.ancestors c).length ≤ l.known.length := by
  have hline : ∀ chain, l.ancestors c = chain ↔ l.IsLineFrom [c.name] c chain :=
    fun _ => ancestorsFrom_eq_iff (nodup_singleton _)
  refine ⟨hline, ?_⟩
  have hfound := (hline _).1 rfl
  exact (hfound.distinct.of_append_left.of_map.subperm hfound.subset_known).length_le

end Restage.Conversion.Lookup
