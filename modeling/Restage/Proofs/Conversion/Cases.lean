import Restage.Proofs.Conversion.Setting

/-!
# What a statement can do

The functions of a walk look at a statement from several sides before they act.  What follows from a
statement is another matter: there are few things that can have been done to the walk, whatever was
looked at.  This module lists them, one function after the other, so that a proof about the walk
goes through the list and not through the conditions.  `Walk.memberPlace` and `Walk.method_cases`
are the lists for a member of a class and for a method.
-/

namespace Restage.Conversion

open Text Java TypeScript List

namespace Walk

variable {around : Surroundings} {w w' : Walk} {s : Statement}

/-- A statement outside of all classes is left out, waits, or declares a class. -/
lemma topLevel_cases (w : Walk) (l : Lookup) (s : Statement) (before : Nat) :
    (((package? s.text).isSome = true ∨ (import? s.text).isSome = true) ∧
      ∃ reason, (reason = ("package declaration" : Text) ∨ reason = ("source import" : Text)) ∧
        w.topLevel l s before = w.diagnose s reason) ∨
    (package? s.text = none ∧ import? s.text = none) ∧
      ((splitAnnotations s.text).2.isEmpty = true ∧
        w.topLevel l s before = { w with pending := w.pending ++ (splitAnnotations s.text).1 } ∨
      (splitAnnotations s.text).2.isEmpty = false ∧
        ((∃ h, classHeader? (stripGenerics (splitAnnotations s.text).2) = some h ∧
          w.topLevel l s before = { w with pending := [] }.openClass l s h) ∨
        classHeader? (stripGenerics (splitAnnotations s.text).2) = none ∧
          w.topLevel l s before = { w with pending := [] }.skip s "no pattern match" (before < w.depth))) := by
  rw [topLevel]
  cases hpackage : package? s.text with
  | some _ => exact .inl ⟨.inl rfl, _, .inl rfl, rfl⟩
  | none =>
    cases himport : import? s.text with
    | some _ => exact .inl ⟨.inr rfl, _, .inr rfl, rfl⟩
    | none =>
      refine .inr ⟨⟨rfl, rfl⟩, ?_⟩
      cases htext : (splitAnnotations s.text).2.isEmpty with
      | true => exact .inl ⟨rfl, if_pos htext⟩
      | false =>
        refine .inr ⟨rfl, ?_⟩
        cases hheader : classHeader? (stripGenerics (splitAnnotations s.text).2) with
        | some h => exact .inl ⟨h, rfl, by simp [htext, hheader]⟩
        | none => exact .inr ⟨rfl, by simp [htext, hheader]⟩

lemma closing_cases (w : Walk) (s : Statement) (inBlock : Bool) (rest : Text) :
    w.closing s inBlock rest = w ∨
    (∃ header context, controlHeader? w.context rest = some (header, context) ∧
      w.closing s inBlock rest =
        { w with context, sheet := w.sheet.chain ("\x7d " ++ header) }) ∨
    w.closing s inBlock rest = w.todo s := by
  rw [closing]
  split_ifs
  · exact .inl rfl
  · cases hheader : controlHeader? w.context rest with
    | some found => exact .inr (.inl ⟨found.1, found.2, rfl, rfl⟩)
    | none => exact .inr (.inr rfl)
  · exact .inr (.inr rfl)

lemma opening_cases (w : Walk) (s : Statement) :
    (∃ header context, controlHeader? w.context s.text = some (header, context) ∧
      w.opening s = { w with context, sheet := w.sheet.openScope header }.enter .block) ∨
    w.opening s = (w.todo s).enter .commented := by
  rw [opening]
  cases hheader : controlHeader? w.context s.text with
  | some found => exact .inl ⟨found.1, found.2, rfl, rfl⟩
  | none => exact .inr rfl

/-- A statement in a body closes a brace, opens one, is nothing but a brace, or has a part that is
converted. -/
lemma bodyStatement_cases {inBlock : Bool} (h : w.bodyStatement s inBlock = .ok w') :
    (∃ rest, w' = w.closing s inBlock rest) ∨ w' = w.opening s ∨ w' = w ∨
    ∃ text, text ⊆ s.text ∧ w.convert s.line text = .ok w' := by
  cases bodyPlace s with
  | closing r _ _ hwalk _ =>
    rw [hwalk] at h
    exact .inl ⟨trim r, (Except.ok.inj h).symm⟩
  | opening _ _ _ hwalk _ =>
    rw [hwalk] at h
    exact .inr (.inl (Except.ok.inj h).symm)
  | other _ _ hsubset hwalk _ =>
    rw [hwalk] at h
    cases hpart : bodyPart? s with
    | none =>
      rw [hpart] at h
      exact .inr (.inr (.inl (Except.ok.inj h).symm))
    | some part =>
      rw [hpart] at h
      exact .inr (.inr (.inr ⟨part, hsubset part hpart, h⟩))

/-- What a statement does depends on the construct around it, if it does anything. -/
lemma within_cases {before : Nat} {frame : Option Frame}
    (h : w.within around before s frame = .ok w') :
    w' = w ∨ (frame = none ∧ w' = w.topLevel around.lookup s before) ∨
    ((∃ depth, frame = some ⟨.commented, depth⟩) ∧ w' = w.todo s) ∨
    (∃ construct depth inBlock, frame = some ⟨construct, depth⟩ ∧
      (construct = .block ∨ ∃ name mark, construct = .method name mark) ∧
      w.bodyStatement s inBlock = .ok w') ∨
    ∃ info style, frame = some ⟨.classBody info style, before⟩ ∧
      w.member around s info style before = .ok w' := by
  unfold within at h
  split_ifs at h
  · cases h
    exact .inl rfl
  rcases frame with _ | ⟨_ | ⟨info, style⟩ | ⟨name, mark⟩ | _ | _, depth⟩
  · cases h
    exact .inr (.inl ⟨rfl, rfl⟩)
  · cases h
    exact .inl rfl
  · dsimp only at h
    split_ifs at h with hdepth
    · subst hdepth
      exact .inr (.inr (.inr (.inr ⟨info, style, rfl, h⟩)))
    · cases h
      exact .inl rfl
  · exact .inr (.inr (.inr (.inl ⟨_, depth, false, rfl, .inr ⟨name, mark, rfl⟩, h⟩)))
  · exact .inr (.inr (.inr (.inl ⟨_, depth, true, rfl, .inl rfl, h⟩)))
  · cases h
    exact .inr (.inr (.inl ⟨⟨depth, rfl⟩, rfl⟩))

/-- A statement is a comment, or its braces are counted, it does what it does where it stands, and
the constructs that it closed are left. -/
lemma step_cases (h : w.step around s = .ok w') :
    (s.isComment = true ∧ w' = if keepsComments w.frames.head? then
      w.onSheet (·.emitAll (s.rawLines.map commentLine)) else w) ∨
    (s.isComment = false ∧ ∃ inside,
      (w.count s).within around w.depth s w.frames.head? = .ok inside ∧
      w' = unwindFrames around.recognizer inside inside.frames) := by
  rw [step] at h
  by_cases hcomment : s.isComment = true
  · rw [if_pos hcomment] at h
    cases h
    exact .inl ⟨hcomment, rfl⟩
  · rw [if_neg hcomment] at h
    obtain ⟨inside, hinside, h⟩ := exists_of_bind_eq_ok h
    exact .inr ⟨by simpa using hcomment, inside, hinside, (checked_eq_ok_iff.1 h).2⟩

/-- No reply has broken a walk that has got through a statement. -/
lemma broken_step (hunbroken : w.broken = none) (h : w.step around s = .ok w') :
    w'.broken = none := by
  rw [step] at h
  split_ifs at h
  · cases h
    exact hunbroken
  · cases h
    exact hunbroken
  · obtain ⟨inside, -, h⟩ := exists_of_bind_eq_ok h
    obtain ⟨hinside, rfl⟩ := checked_eq_ok_iff.1 h
    exact hinside

lemma broken_foldlM {statements : List Statement} (hunbroken : w.broken = none)
    (h : statements.foldlM (step around) w = .ok w') : w'.broken = none :=
  foldlM_invariant (P := (·.broken = none)) broken_step h hunbroken

/-! What becomes of the context. -/

lemma context_skip (w : Walk) (s : Statement) (reason : Text) (opened : Bool) :
    (w.skip s reason opened).context = (w.diagnose s reason).context := by
  rw [skip]
  split_ifs <;> rfl

lemma context_field (w : Walk) (l : Lookup) (s : Statement) (style : Style) (f : FieldHeader)
    (annotations : List Text) :
    (w.field l s style f annotations).context = w.context ∨
      ∃ reason, (w.field l s style f annotations).context = (w.diagnose s reason).context := by
  simp only [field, elementField]
  split_ifs
  · exact .inr ⟨_, rfl⟩
  · split
    · exact .inl rfl
    · exact .inr ⟨_, rfl⟩
  · exact .inl rfl
  · exact .inr ⟨_, rfl⟩

lemma context_openStyle (w : Walk) (l : Lookup) (info : ClassInfo) (style : Style) :
    ∃ imports, (w.openStyle l info style).context = { w.context with imports } := by
  have himport : ∀ name, ∃ imports, w.context.importClass name = { w.context with imports } := by
    intro name
    rw [Context.importClass]
    split <;> exact ⟨_, rfl⟩
  cases style with
  | exception =>
    simp only [openStyle, openException]
    split
    · exact himport _
    · exact ⟨_, rfl⟩
  | steps =>
    rw [openStyle, openSteps]
    split_ifs <;> exact ⟨_, rfl⟩
  | page =>
    rw [openStyle, openPage]
    split
    · exact himport _
    · exact ⟨_, rfl⟩

lemma context_bodyStatement {inBlock : Bool} (h : w.bodyStatement s inBlock = .ok w') :
    w'.context = w.context ∨ (∃ t header, controlHeader? w.context t = some (header, w'.context)) ∨
    (∃ reason, w'.context = (w.diagnose s reason).context) ∨
    ∃ text lines, statement s.line text w.context = .ok (lines, w'.context) := by
  rcases bodyStatement_cases h with ⟨rest, rfl⟩ | rfl | rfl | ⟨text, -, hconvert⟩
  · rcases closing_cases w s inBlock rest with hw | ⟨header, context, hheader, hw⟩ | hw
    · exact .inl (congrArg context hw)
    · rw [hw]
      exact .inr (.inl ⟨rest, header, hheader⟩)
    · rw [hw]
      exact .inr (.inr (.inl ⟨_, rfl⟩))
  · rcases opening_cases w s with ⟨header, context, hheader, hw⟩ | hw
    · rw [hw]
      exact .inr (.inl ⟨s.text, header, hheader⟩)
    · rw [hw]
      exact .inr (.inr (.inl ⟨_, rfl⟩))
  · exact .inl rfl
  · obtain ⟨converted, hconverted, hconvert⟩ := exists_of_bind_eq_ok hconvert
    cases hconvert
    exact .inr (.inr (.inr ⟨text, converted.1, hconverted⟩))

lemma context_finishMethod (w : Walk) (recognizer : Option Recognizer) (name : Text) (mark : Nat) :
    (w.finishMethod recognizer name mark).context = w.context.leaveMethod.2 := by
  simp only [finishMethod]
  split <;> rfl

lemma unwindFrames_context (w : Walk) (recognizer : Option Recognizer) (frames : List Frame) :
    (unwindFrames recognizer w frames).context = w.context ∨
      (unwindFrames recognizer w frames).context = w.context.leaveMethod.2 := by
  induction frames generalizing w with
  | nil => exact .inl rfl
  | cons f outer ih =>
    rw [unwindFrames]
    split_ifs
    · have houter := ih (w.leave recognizer f.construct)
      cases hconstruct : f.construct with
      | method name mark =>
        have hleft : (w.leave recognizer (.method name mark)).context = w.context.leaveMethod.2 :=
          context_finishMethod ..
        rw [hconstruct, hleft] at houter
        exact .inr (houter.elim id id)
      | classBody info style =>
        rw [hconstruct] at houter
        cases style <;> exact houter
      | skipped | block | commented =>
        rw [hconstruct] at houter
        exact houter
    · exact .inl rfl

end Walk

end Restage.Conversion
