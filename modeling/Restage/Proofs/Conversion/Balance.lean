import Restage.Proofs.Conversion.Nesting
import Restage.Proofs.TypeScript.Accounting
import Restage.Settings.Basic

/-!
# When the code is balanced

The braces of the code of a file need not be balanced.  Conditions, arguments and names go from the
source into the output as they are, and nothing looks at their braces: the header

``` if (a) { if (b) { ```

is taken for one condition, opens one scope, and leaves a brace open (`code_unbalanced`).

`code_balanced_iff` says exactly when the code is balanced.  In general that is when the lines of
the sheet have as many braces open as it has scopes, counted the way a reader counts them, with
block comments in mind.  If no block comment is left open, it is when the calls of the conversion
are off by nothing in total, so a file is balanced as soon as each header opens one brace and each
other line is even, and what goes wrong in one line can only be made up for by another.

That the excesses of the calls add up rests on the nesting of the walk.  A pattern is noted above
the header of its method when the method is left, long after; the note goes to a place that was
outside of all comments when the header was written, and is still there since only one method is
open at a time.
-/

namespace Restage.Conversion

open Text Java TypeScript List Sheet Walk

variable {line closer : Text}

/-! ## Calls that can be booked -/

lemma isCloser_of_plain (h : plain (.openScope line closer) = true) :
    IsCloser closer := by
  simpa [plain, IsCloser] using h

variable {calls : List Call} {statements : List Statement}

lemma along_ready_of_plain (h : calls.all plain = true) (sheet : Sheet) :
    sheet.Along Ready calls := by
  refine along_of_forall (fun c hc _ => ?_) sheet
  have hplain := all_eq_true.1 h c hc
  cases c with
  | openScope line closer => exact isCloser_of_plain hplain
  | chain | insert | addImport => cases hplain
  | emit | comment | blank | closeScope => trivial

lemma bodyTexts_prefix_of_plain (h : calls.all plain = true) (sheet : Sheet) :
    sheet.bodyTexts <+: (sheet.performAll calls).bodyTexts := by
  refine sheet.bodyTexts_prefix_performAll ?_
  rintro c hc position lines rfl
  exact absurd (all_eq_true.1 h _ hc) Bool.false_ne_true

variable {w : Walk} {around : Surroundings}

lemma along_ready_noteCalls {recognizer : Option Recognizer} {mark : Nat} {sheet : Sheet}
    (h : sheet.SettledAt mark) : sheet.Along Ready (noteCalls recognizer w mark) := by
  rw [noteCalls]
  cases best? recognizer w.asked w.context.actions with
  | none => trivial
  | some best => exact ⟨⟨mark, rfl, h⟩, trivial⟩

lemma isCloser_of_mem_stepCalls {s : Statement} (h : .openScope line closer ∈ stepCalls around w s) : IsCloser closer := by
  have hplain : ∀ calls : List Call, calls.all plain = true → .openScope line closer ∈ calls →
      IsCloser closer :=
    fun calls hcalls hmem => isCloser_of_plain (all_eq_true.1 hcalls _ hmem)
  rw [stepCalls] at h
  split_ifs at h
  · exact hplain _ rfl h
  · cases h
  rcases mem_append.1 h with h | h
  · rcases mem_append.1 h with h | h
    · exact hplain _ (plain_countCalls w s) h
    · rcases withinCalls_cases around (w.count s) w.depth s w.frames.head? with
        hcalls | ⟨_, _, -, hchain⟩ | ⟨_, _, _, calls, after, -, hcalls, hnote⟩
      · exact hplain _ hcalls h
      · rw [hchain] at h
        cases mem_singleton.1 h
      · rw [hnote] at h
        rcases mem_append.1 h with h | h
        · exact hplain (.blank :: calls) (by rw [all_cons, hcalls]; rfl) h
        · obtain ⟨lines, hlines⟩ := mem_noteCalls h
          cases hlines
  · split at h
    · rcases mem_unwindCalls h with hc | hc | ⟨_, mark, hnote⟩
      iterate 2 cases hc
      obtain ⟨_, hc⟩ := mem_noteCalls hnote
      cases hc
    · cases h

lemma isCloser_of_mem_walkCalls (h : .openScope line closer ∈ walkCalls around w statements) : IsCloser closer := by
  induction statements generalizing w with
  | nil => cases h
  | cons s rest ih =>
    rcases mem_append.1 h with h | h
    · exact isCloser_of_mem_stepCalls h
    · split at h
      · exact ih h
      · cases h

lemma Task.isCloser_of_mem_calls {t : Task} (h : .openScope line closer ∈ t.calls) : IsCloser closer := by
  rcases mem_append.1 h with h | h
  · exact isCloser_of_mem_walkCalls h
  · split at h
    · obtain ⟨_, -, himport⟩ := mem_map.1 h
      cases himport
    · cases h

/-! ## Marks -/

/-- Notes for the methods among some frames can be put in. -/
def MarksSettled (sheet : Sheet) (frames : List Frame) : Prop :=
  ∀ f ∈ frames, ∀ name mark, f.construct = .method name mark → sheet.SettledAt mark

namespace MarksSettled

variable {sheet sheet' : Sheet} {frames : List Frame}

lemma of_notMem (h : Kind.method ∉ kindsOf frames) : MarksSettled sheet frames := by
  intro f hf name mark hmethod
  refine absurd (mem_map.2 ⟨f, hf, ?_⟩) h
  rw [hmethod]
  rfl

lemma mono (h : MarksSettled sheet frames) (hbody : sheet.bodyTexts <+: sheet'.bodyTexts) :
    MarksSettled sheet' frames :=
  fun f hf name mark hmethod => (h f hf name mark hmethod).mono hbody

lemma leave {f : Frame} {outer : List Frame} (h : MarksSettled w.sheet (f :: outer))
    (hstack : Stack (kindsOf (f :: outer))) (recognizer : Option Recognizer) :
    w.sheet.Along Ready (leaveCalls recognizer w f.construct) ∧
      MarksSettled (w.leave recognizer f.construct).sheet outer := by
  have houter : MarksSettled w.sheet outer := fun g hg => h g (mem_cons_of_mem _ hg)
  have hplain : (leaveCalls recognizer w f.construct).all plain = true →
      w.sheet.Along Ready (leaveCalls recognizer w f.construct) ∧
        MarksSettled (w.leave recognizer f.construct).sheet outer := by
    intro hcalls
    refine ⟨along_ready_of_plain hcalls _, houter.mono ?_⟩
    rw [sheet_leave]
    exact bodyTexts_prefix_of_plain hcalls w.sheet
  cases hc : f.construct with
  | method name mark =>
    have hkinds : Stack (.method :: kindsOf outer) := by
      have hkind : f.construct.kind = .method := by rw [hc]; rfl
      exact hkind ▸ hstack
    have hmark : w.sheet.SettledAt mark := h f (mem_cons_self ..) name mark hc
    refine ⟨⟨trivial, along_ready_noteCalls (hmark.mono ?_)⟩, of_notMem hkinds.method_notMem⟩
    exact w.sheet.bodyTexts_prefix_perform (by simp)
  | classBody info style =>
    rw [hc] at hplain
    exact hplain (by cases style <;> rfl)
  | skipped | block | commented =>
    rw [hc] at hplain
    exact hplain rfl

/-- **Leaving frames.**  The frames are those of the source before it closed some of them. -/
lemma unwindFrames (h : MarksSettled w.sheet frames) (hstack : Stack (kindsOf frames))
    (recognizer : Option Recognizer) :
    w.sheet.Along Ready (unwindCalls recognizer w frames) ∧
      MarksSettled (Walk.unwindFrames recognizer w frames).sheet
        (Walk.unwindFrames recognizer w frames).frames := by
  induction frames generalizing w with
  | nil => exact ⟨trivial, h⟩
  | cons f outer ih =>
    rw [unwindCalls, unwindFrames]
    split_ifs
    · obtain ⟨hready, hmarks⟩ := h.leave hstack recognizer
      obtain ⟨hrest, hmarks⟩ := ih hmarks hstack.tail
      rw [sheet_leave] at hrest
      exact ⟨along_append.2 ⟨hready, hrest⟩, hmarks⟩
    · exact ⟨trivial, h⟩

end MarksSettled

/-! ## The books of a walk -/

/-- **The books of a walk.**  The sheet is off by `n`, and notes can be put in where the open method
was marked. -/
structure Walk.Booked (n : Int) (w : Walk) : Prop where
  nests : w.Nests
  accounted : w.sheet.Accounted n
  marks : MarksSettled w.sheet w.frames

namespace Walk.Booked

variable {n : Int} {w w' inside : Walk} {around : Surroundings} {s : Statement}

lemma count (h : w.Booked n) (s : Statement) :
    (w.count s).sheet.Accounted n ∧ MarksSettled (w.count s).sheet w.frames := by
  rw [sheet_count]
  refine ⟨?_, h.marks.mono (bodyTexts_prefix_of_plain (plain_countCalls w s) w.sheet)⟩
  rw [countCalls]
  split_ifs
  · exact h.accounted.closeScope
  · exact h.accounted

lemma settledAt_start (h : w.Booked n) (s : Statement) (hcalls : calls.all plain = true) :
    ((w.count s).sheet.blank.performAll calls).SettledAt (w.count s).sheet.blank.mark :=
  (h.count s).1.blank.settledAt_mark.mono (bodyTexts_prefix_of_plain hcalls _)

/-- The calls for a statement can be booked, before frames are left, and so can the notes to
come. -/
lemma within (h : w.Booked n)
    (hinside : (w.count s).within around w.depth s w.frames.head? = .ok inside) :
    (w.count s).sheet.Along Ready
        (withinCalls around (w.count s) w.depth s w.frames.head?) ∧
      MarksSettled inside.sheet inside.frames := by
  have hsheet := sheet_within hinside
  obtain ⟨hready, hold⟩ : (w.count s).sheet.Along Ready
        (withinCalls around (w.count s) w.depth s w.frames.head?) ∧
      MarksSettled inside.sheet w.frames := by
    rw [hsheet]
    rcases withinCalls_cases around (w.count s) w.depth s w.frames.head? with
      hplain | ⟨depth, line, hframe, hline⟩ | ⟨_, _, _, calls, after, hframe, hcalls, hnote⟩
    · exact ⟨along_ready_of_plain hplain _, (h.count s).2.mono (bodyTexts_prefix_of_plain hplain _)⟩
    · have hscope : (w.count s).sheet.scopes ≠ [] :=
        ne_nil_of_length_pos (h.nests.scopes_of_block hframe rfl s)
      rw [hline]
      exact ⟨⟨hscope, trivial⟩,
        (h.count s).2.mono (bodyTexts_prefix_perform (c := .chain line) _ (by simp))⟩
    · -- In the body of a class no method is open whose mark the note could move.
      rw [hnote]
      refine ⟨along_append.2 ⟨along_ready_of_plain ?_ _, ?_⟩, .of_notMem ?_⟩
      · rw [all_cons, hcalls]
        rfl
      · exact along_ready_noteCalls (h.settledAt_start s hcalls)
      · exact h.nests.stack.method_notMem_of_class (by rw [kindsOf, head?_map, hframe]; rfl)
  obtain ⟨pushed, henters, -⟩ := h.nests.within hinside
  refine ⟨hready, fun f hf name mark hmethod => ?_⟩
  rw [henters.frames, frames_count] at hf
  rcases mem_append.1 hf with hf | hf
  · cases pushed with
    | none => cases hf
    | some c =>
      obtain rfl := mem_singleton.1 hf
      obtain ⟨rfl, calls, hcalls, hstart⟩ := henters.marks name mark (congrArg some hmethod)
      rw [hstart]
      exact h.settledAt_start s hcalls
  · exact hold f hf name mark hmethod

/-- **One statement** adds the excesses of its calls. -/
lemma step (h : w.Booked n) (hstep : w.step around s = .ok w')
    (hsettled : ∀ c ∈ stepCalls around w s, Settled c.texts) :
    w'.Booked (n + Call.excesses (stepCalls around w s)) := by
  obtain ⟨hready, hmarks⟩ : w.sheet.Along Ready (stepCalls around w s) ∧
      MarksSettled w'.sheet w'.frames := by
    rw [stepCalls]
    rw [Walk.step] at hstep
    by_cases hcomment : s.isComment = true
    · rw [if_pos hcomment] at hstep ⊢
      cases hstep
      split_ifs
      · exact ⟨⟨trivial, trivial⟩, h.marks.mono (bodyTexts_prefix_perform (c := .emit _) _ (by simp))⟩
      · exact ⟨trivial, h.marks⟩
    · rw [if_neg hcomment] at hstep ⊢
      obtain ⟨inside, hinside, hstep⟩ := exists_of_bind_eq_ok hstep
      obtain ⟨-, rfl⟩ := checked_eq_ok_iff.1 hstep
      obtain ⟨-, -, hleaving⟩ := h.nests.within hinside
      obtain ⟨hwithin, hmarks⟩ := h.within hinside
      obtain ⟨hunwind, hmarks⟩ := hmarks.unwindFrames hleaving.stack around.recognizer
      rw [hinside, along_append, along_append, performAll_append,
        ← sheet_count, ← sheet_within hinside]
      exact ⟨⟨⟨along_ready_of_plain (plain_countCalls w s) _, hwithin⟩, hunwind⟩, hmarks⟩
  refine ⟨h.nests.step hstep, ?_, hmarks⟩
  rw [sheet_step hstep]
  exact h.accounted.performAll hready hsettled

/-- **A walk** adds the excesses of all its calls up. -/
lemma foldlM (h : w.Booked n) (hwalk : statements.foldlM (Walk.step around) w = .ok w')
    (hsettled : ∀ c ∈ walkCalls around w statements, Settled c.texts) :
    w'.Booked (n + Call.excesses (walkCalls around w statements)) := by
  induction statements generalizing w n with
  | nil =>
    cases hwalk
    simpa [walkCalls] using h
  | cons s rest ih =>
    obtain ⟨next, hnext, hwalk⟩ := foldlM_cons_eq_ok.1 hwalk
    rw [walkCalls, hnext] at hsettled ⊢
    have hstep := h.step hnext fun c hc => hsettled c (mem_append_left _ hc)
    have hrest := ih hstep hwalk fun c hc => hsettled c (mem_append_right _ hc)
    rwa [Call.excesses_append, ← Int.add_assoc]

end Walk.Booked

/-! ## Files -/

namespace Task

variable {t : Task}

lemma start_booked (t : Task) : t.start.Booked 0 := by
  refine ⟨t.start_nests, ⟨rfl, ?_⟩, ?_⟩ <;> rintro _ ⟨⟩

lemma accounted (hwalk : t.walk = .ok w) (hsettled : ∀ c ∈ t.calls, Settled c.texts) :
    (Sheet.performAll { baseImports := t.baseImports } t.calls).Accounted
      (Call.excesses t.calls) := by
  rw [calls, hwalk] at hsettled ⊢
  have hbooked := t.start_booked.foldlM hwalk fun c hc => hsettled c (mem_append_left _ hc)
  have hready : w.sheet.Along Ready (w.context.imports.map .addImport) := by
    refine along_of_forall (fun c hc _ => ?_) w.sheet
    obtain ⟨_, -, rfl⟩ := List.mem_map.1 hc
    trivial
  have hsheet := hbooked.accounted.performAll hready fun c hc => hsettled c (mem_append_right _ hc)
  rw [sheet_foldlM hwalk] at hsheet
  rwa [Int.zero_add, ← Call.excesses_append, ← performAll_append] at hsheet

end Task

/-- **When the code is balanced.**  The code of a file is what its calls leave on an empty sheet,
and it is balanced exactly when a reader who comes to the end of the lines has one brace open for
each scope that is left to close, or is inside a block comment with none open.  If no call leaves a
block comment open, that is when the excesses of the calls and the braces of the imports add up to
zero. -/
theorem code_balanced_iff (t : Task) (o : Output) (h : t.run = .ok o) :
    let sheet := Sheet.performAll { baseImports := t.baseImports } t.calls
    let tally := tallyOf (sheet.allImports ++ sheet.bodyTexts)
    o.code = sheet.render ∧
    ((Braces.ofText o.code).opens = (Braces.ofText o.code).closes ↔
      tally.balance = if tally.inBlock then 0 else (sheet.depth : Int)) ∧
    ((∀ c ∈ t.calls, Settled c.texts) → (∀ i ∈ sheet.allImports, Settled [i]) →
      ((Braces.ofText o.code).opens = (Braces.ofText o.code).closes ↔
        total sheet.allImports + Call.excesses t.calls = 0)) := by
  intro sheet tally
  have hcode : o.code = sheet.render := Task.run_code h
  have hclosers : ∀ c ∈ sheet.scopes, IsCloser c :=
    Sheet.isCloser_performAll (by rintro _ ⟨⟩) fun _ _ => Task.isCloser_of_mem_calls
  obtain ⟨w, hwalk, -⟩ := exists_of_bind_eq_ok h
  rw [hcode]
  refine ⟨rfl, Sheet.opens_eq_closes_iff hclosers, fun hsettled himports => ?_⟩
  exact (Task.accounted hwalk hsettled).opens_eq_closes_iff himports

/-- A note that is put in above a method, with a brace in it, and braces in comments: no call is
off, and the code is balanced. -/
theorem code_balanced_noted :
    let t : Task :=
      { document := ⟨["class A \x7b", "/* \x7b */", "void m() \x7b", "if (a) \x7b", "driver.get(u);",
          "\x7d else \x7b", "\x7d", "\x7d", "\x7d"]⟩
        baseImports := ({} : Settings).baseImports
        recognizer := some ⟨fun _ _ => .found [some { name := "Visit", description := "open \x7b" }]⟩ }
    let sheet := Sheet.performAll { baseImports := t.baseImports } t.calls
    (∀ c ∈ t.calls, Settled c.texts) ∧ (∀ i ∈ sheet.allImports, Settled [i]) ∧
      ∃ o, t.run = .ok o ∧ (Braces.ofText o.code).opens = (Braces.ofText o.code).closes := by
  intro t sheet
  obtain ⟨hsettled, himports, hzero⟩ : (∀ c ∈ t.calls, Settled c.texts) ∧
      (∀ i ∈ sheet.allImports, Settled [i]) ∧
      total sheet.allImports + Call.excesses t.calls = 0 := by decide +kernel
  obtain ⟨o, ho, -⟩ : ∃ o, t.run = .ok o ∧ True := exists_of_any_toOption (by decide +kernel)
  obtain ⟨-, -, hbalanced⟩ := code_balanced_iff t o ho
  exact ⟨hsettled, himports, o, ho, (hbalanced hsettled himports).2 hzero⟩

/-- Two blocks that are opened on one line become one header with two braces, and one scope.  The
imports are balanced, and the code has a brace open at its end. -/
theorem code_unbalanced :
    let t : Task :=
      { document := ⟨["class A \x7b", "void m() \x7b", "if (a) \x7b if (b) \x7b", "\x7d \x7d", "\x7d",
          "\x7d"]⟩
        baseImports := ({} : Settings).baseImports }
    total t.baseImports = 0 ∧ ∃ o, t.run = .ok o ∧ Braces.ofText o.code = ⟨6, 5⟩ := by
  intro t
  exact ⟨by decide +kernel, exists_of_any_toOption (by decide +kernel)⟩

end Restage.Conversion
