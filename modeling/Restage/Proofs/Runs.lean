import Mathlib.Tactic.Common

/-!
# Runs of steps that may fail

A run goes from state to state and ends with the first error.  What every step keeps, the run keeps
(`foldlM_invariant`).
-/

namespace Restage

open List

variable {ε α σ : Type} {f : σ → α → Except ε σ} {s s' : σ} {a : α} {before after : List α}
  {x : Except ε α}

lemma exists_of_bind_eq_ok {β : Type} {f : α → Except ε β} {b : β} (h : (x >>= f) = .ok b) : ∃ a, x = .ok a ∧ f a = .ok b := by
  cases x with
  | error fault => cases h
  | ok a => exact ⟨a, rfl, h⟩

lemma bind_of_eq_ok {β : Type} (h : x = .ok a) (f : α → Except ε β) :
    x >>= f = f a := by
  rw [h]
  rfl

lemma eq_ok_of_mapError {δ : Type} {f : ε → δ} (h : x.mapError f = .ok a) :
    x = .ok a := by
  cases x with
  | error e => cases h
  | ok b =>
    cases h
    rfl

lemma foldlM_append_eq_ok : (before ++ after).foldlM f s = .ok s' ↔
    ∃ middle, before.foldlM f s = .ok middle ∧ after.foldlM f middle = .ok s' := by
  rw [foldlM_append]
  constructor
  · exact exists_of_bind_eq_ok
  · rintro ⟨middle, hbefore, hafter⟩
    rw [hbefore]
    exact hafter

lemma foldlM_cons_eq_ok : (a :: after).foldlM f s = .ok s' ↔
    ∃ next, f s a = .ok next ∧ after.foldlM f next = .ok s' := by
  have hfirst : [a].foldlM f s = f s a := foldlM_cons.trans (bind_pure _)
  rw [← singleton_append, foldlM_append_eq_ok, hfirst]

lemma foldlM_invariant {P : σ → Prop} (hstep : ∀ {s s' a}, P s → f s a = .ok s' → P s')
    (hrun : after.foldlM f s = .ok s') (h : P s) : P s' := by
  induction after generalizing s with
  | nil =>
    cases hrun
    exact h
  | cons a after ih =>
    obtain ⟨next, hnext, hrun⟩ := foldlM_cons_eq_ok.1 hrun
    exact ih hrun (hstep h hnext)

/-- **The first step that fails** decides the error. -/
lemma foldlM_eq_error_iff {e : ε} {steps : List α} : steps.foldlM f s = .error e ↔
    ∃ before a after s', steps = before ++ a :: after ∧ before.foldlM f s = .ok s' ∧ f s' a = .error e := by
  constructor
  · intro h
    induction steps generalizing s with
    | nil => cases h
    | cons a rest ih =>
      rw [foldlM_cons] at h
      cases hstep : f s a with
      | error e' =>
        rw [hstep] at h
        cases h
        exact ⟨[], a, rest, s, rfl, rfl, hstep⟩
      | ok next =>
        rw [hstep] at h
        obtain ⟨before, b, after, s', rfl, hbefore, hfails⟩ := ih h
        exact ⟨a :: before, b, after, s', rfl, foldlM_cons_eq_ok.2 ⟨next, hstep, hbefore⟩, hfails⟩
  · rintro ⟨before, a, after, s', rfl, hbefore, hfails⟩
    rw [foldlM_append, hbefore]
    change (a :: after).foldlM f s' = .error e
    rw [foldlM_cons, hfails]
    rfl

end Restage
