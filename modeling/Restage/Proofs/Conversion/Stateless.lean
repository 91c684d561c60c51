import Restage.Proofs.Conversion.Notes

/-!
# Recognizers that forget

A recognizer is handed everything that it was asked before, by this file and by the files converted
earlier.  One whose replies do not depend on that makes the same notes whatever came before
(`notesOn_of_stateless`).  The rest of a conversion does not see the recognizer at all, so two
conversions that differ in what was asked before write the same file (`Task.written_run`).
-/

namespace Restage

/-- A recognizer whose replies depend on the actions alone. -/
def Recognizer.Stateless (r : Recognizer) : Prop :=
  ∀ asked asked' actions, r.reply asked actions = r.reply asked' actions

namespace Conversion

open Text Java TypeScript

variable {r : Option Recognizer}

lemma patterns_of_stateless (hr : ∀ s ∈ r, s.Stateless) (asked asked' : List (List Action))
    (actions : List Action) : (consult r asked actions).1 = (consult r asked' actions).1 := by
  cases r with
  | none => rfl
  | some s =>
    cases actions with
    | nil => rfl
    | cons action actions =>
      have hreply := hr s rfl asked asked' (action :: actions)
      simp only [consult, hreply]

lemma notesOn_of_stateless (hr : ∀ s ∈ r, s.Stateless) (asked asked' : List (List Action))
    (visits : List Visit) : notesOn r asked visits = notesOn r asked' visits := by
  induction visits generalizing asked asked' with
  | nil => rfl
  | cons v visits ih =>
    rw [notesOn, noteOn, best?, patterns_of_stateless hr asked asked']
    exact congrArg _ (ih _ _)

lemma firstBreak_of_stateless (hr : ∀ s ∈ r, s.Stateless) (asked asked' : List (List Action))
    (visits : List Visit) : firstBreak r asked visits = firstBreak r asked' visits := by
  induction visits generalizing asked asked' with
  | nil => rfl
  | cons v visits ih =>
    rw [firstBreak, breakOn, patterns_of_stateless hr asked asked']
    exact congrArg _ (ih _ _)

lemma render_eq_of_noted {notes : List (Nat × Text)} {s s₁ s₂ : Sheet} (h₁ : Noted notes s s₁)
    (h₂ : Noted notes s s₂) : s₁.render = s₂.render := by
  rw [Sheet.render, Sheet.render, Sheet.header, Sheet.header, Sheet.allImports, Sheet.allImports,
    Sheet.closedBody, Sheet.closedBody, h₁.baseImports, h₁.imports, h₁.body, h₁.scopes,
    h₂.baseImports, h₂.imports, h₂.body, h₂.scopes]

/-- What is written of an output: the code, and the diagnostics from which the report is made. -/
def Output.written (o : Output) : Text × List Diagnostic := (o.code, o.diagnostics)

/-- **What was asked before does not matter** to a recognizer that forgets it. -/
theorem Task.written_run (t : Task) (hr : ∀ s ∈ t.recognizer, s.Stateless)
    (asked : List (List Action)) :
    ({ t with asked }.run).map Output.written = t.run.map Output.written := by
  have hnotes := notesOn_of_stateless hr asked t.asked t.visits
  have hbreak := firstBreak_of_stateless hr asked t.asked t.visits
  rcases t.walk_compared t.asked with ⟨fault, hfault, hwalk⟩ | ⟨hlisted, hrun⟩
  · rcases t.walk_compared asked with ⟨fault', hfault', hwalk'⟩ | ⟨hlisted', -⟩
    · obtain rfl : fault = fault' := Option.some.inj (hfault.symm.trans (hbreak.symm.trans hfault'))
      rw [Task.run, hwalk', Task.run, hwalk]
      rfl
    · cases hfault.symm.trans (hbreak.symm.trans hlisted')
  rcases t.walk_compared asked with ⟨fault', hfault', -⟩ | ⟨-, hrun'⟩
  · cases hlisted.symm.trans (hbreak.symm.trans hfault')
  rcases hrun with ⟨fault, hplain, hwalk⟩ | ⟨w, w₁, hplain, hwalk, h₁⟩
  · rcases hrun' with ⟨fault', hplain', hwalk'⟩ | ⟨w, w₂, hplain', -, -⟩
    · obtain rfl : fault = fault' := Except.error.inj (hplain.symm.trans hplain')
      rw [Task.run, hwalk', Task.run, hwalk]
      rfl
    · cases hplain.symm.trans hplain'
  · rcases hrun' with ⟨fault', hplain', -⟩ | ⟨w', w₂, hplain', hwalk', h₂⟩
    · cases hplain.symm.trans hplain'
    · obtain rfl : w = w' := Except.ok.inj (hplain.symm.trans hplain')
      have hcontext : w₂.context = w₁.context := h₂.context_eq.trans h₁.context_eq.symm
      have hcode : (finishedSheet w₂).render = (finishedSheet w₁).render := by
        rw [finishedSheet, hcontext]
        refine render_eq_of_noted (h₂.noted.addImports _) ?_
        rw [hnotes]
        exact h₁.noted.addImports _
      rw [Task.run_of_walk hwalk', Task.run_of_walk hwalk, hcontext, hcode]
      rfl

end Conversion

end Restage
