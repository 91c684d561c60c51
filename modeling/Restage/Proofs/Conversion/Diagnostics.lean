import Restage.Proofs.Conversion.Nesting
import Restage.Proofs.TypeScript.ShownLines

/-!
# Diagnostics and the statements that they are about

Diagnostics are added in a dozen places, and some of them come with a line of the output that keeps
the statement as a comment.  `Reports` follows both along the walk: the diagnostics that were added
between two states, and the lines to be done that they announce, which were written after all that
was on the sheet before.

A statement adds at most one diagnostic (`ReportedOnce`).  So the diagnostics of a file go with some
of its statements, none of them a comment, in the order of the statements, and the comments that
they announce are lines of the output in the same order (`diagnostics_account`).
-/

namespace Restage.Conversion

open Text Java TypeScript List

variable {d : Diagnostic} (l : Lookup)

/-- The reason given for a statement that is kept as a comment. -/
def todoReason : Text := "emitted as TODO"

/-- The lines that the diagnostics announce: one for each statement that is kept as a comment. -/
def todoLines (ds : List Diagnostic) : List Text :=
  (ds.filter fun d => d.reason = todoReason).map fun d => "// TODO: " ++ d.text

lemma todoLines_append (ds ds' : List Diagnostic) :
    todoLines (ds ++ ds') = todoLines ds ++ todoLines ds' := by
  simp [todoLines]

lemma todoLines_of_ne (h : d.reason ≠ todoReason) : todoLines [d] = [] := by
  simp [todoLines, h]

/-- Between two states of a walk the given diagnostics were added, and the lines that they announce
were written below what was there. -/
structure Reports (new : List Diagnostic) (w w' : Walk) : Prop where
  diagnostics : w'.context.diagnostics = w.context.diagnostics ++ new
  announced : (w.sheet.bodyTexts ++ todoLines new).Sublist w'.sheet.bodyTexts

variable {calls : List Call} {style : Style}

namespace Reports

variable {new more : List Diagnostic} {w w' w'' : Walk}

lemma of_calls (hdiagnostics : w'.context.diagnostics = w.context.diagnostics ++ new)
    (hsheet : w'.sheet = w.sheet.performAll calls) (hnew : todoLines new = []) : Reports new w w' := by
  refine ⟨hdiagnostics, ?_⟩
  rw [hnew, append_nil, hsheet]
  exact w.sheet.bodyTexts_sublist_performAll calls

lemma quiet (hdiagnostics : w'.context.diagnostics = w.context.diagnostics)
    (hsheet : w'.sheet = w.sheet.performAll calls) : Reports [] w w' :=
  of_calls (by rw [hdiagnostics, append_nil]) hsheet rfl

lemma same (hcontext : w'.context = w.context) (hsheet : w'.sheet = w.sheet) : Reports [] w w' :=
  quiet (congrArg Context.diagnostics hcontext) (hsheet.trans (w.sheet.performAll_nil).symm)

lemma perform (c : Call) (hcontext : w'.context = w.context) (hsheet : w'.sheet = w.sheet.perform c) :
    Reports [] w w' := by
  have hcalls : w'.sheet = w.sheet.performAll [c] := hsheet
  exact quiet (congrArg Context.diagnostics hcontext) hcalls

lemma trans (h : Reports new w w') (h' : Reports more w' w'') : Reports (new ++ more) w w'' := by
  refine ⟨by rw [h'.diagnostics, h.diagnostics, append_assoc], ?_⟩
  rw [todoLines_append, ← append_assoc]
  exact (h.announced.append (Sublist.refl _)).trans h'.announced

end Reports

/-- A diagnostic that is about a statement: it gives its line and some of its text. -/
def IsAbout (d : Diagnostic) (s : Statement) : Prop := d.line = s.line ∧ d.text ⊆ s.text

/-- At most one diagnostic was added, and it is about the statement. -/
def ReportedOnce (s : Statement) (w w' : Walk) : Prop :=
  ∃ new : Option Diagnostic, Reports new.toList w w' ∧ ∀ d ∈ new, IsAbout d s

namespace ReportedOnce

variable {s : Statement} {w w' w'' : Walk}

lemma quiet (h : Reports [] w w') : ReportedOnce s w w' := ⟨none, h, by simp⟩

lemma before (h : Reports [] w w') (h' : ReportedOnce s w' w'') : ReportedOnce s w w'' := by
  obtain ⟨new, hnew, habout⟩ := h'
  exact ⟨new, h.trans hnew, habout⟩

lemma after (h : ReportedOnce s w w') (h' : Reports [] w' w'') : ReportedOnce s w w'' := by
  obtain ⟨new, hnew, habout⟩ := h
  refine ⟨new, ?_, habout⟩
  rw [← append_nil new.toList]
  exact hnew.trans h'

lemma noted (reason : Text) (hreason : reason ≠ todoReason)
    (hdiagnostics : w'.context.diagnostics = (w.diagnose s reason).context.diagnostics)
    (hsheet : w'.sheet = w.sheet.performAll calls) : ReportedOnce s w w' := by
  refine ⟨some ⟨s.line, reason, s.text⟩, ?_, ?_⟩
  · exact Reports.of_calls hdiagnostics hsheet (todoLines_of_ne hreason)
  · rintro _ ⟨⟩
    exact ⟨rfl, Subset.refl _⟩

lemma skip (s : Statement) (w : Walk) {reason : Text} (opened : Bool) (hreason : reason ≠ todoReason) :
    ReportedOnce s w (w.skip s reason opened) := by
  have hdiagnostics := congrArg Context.diagnostics (w.context_skip s reason opened)
  have hsheet : (w.skip s reason opened).sheet = w.sheet.performAll [] := w.sheet_skip s reason opened
  exact noted reason hreason hdiagnostics hsheet

lemma todo (s : Statement) (w : Walk) : ReportedOnce s w (w.todo s) := by
  refine ⟨some ⟨s.line, todoReason, s.text⟩, ⟨rfl, ?_⟩, ?_⟩
  · have hbody : (w.todo s).sheet.bodyTexts = w.sheet.bodyTexts ++ ["// TODO: " ++ s.text] :=
      w.sheet.bodyTexts_emitAll ["// TODO: " ++ s.text]
    have hannounced : todoLines [⟨s.line, todoReason, s.text⟩] = ["// TODO: " ++ s.text] := by
      simp [todoLines]
    rw [hbody, Option.toList_some, hannounced]
  · rintro _ ⟨⟩
    exact ⟨rfl, Subset.refl _⟩

lemma convert {text : Text} (htext : text ⊆ s.text) (h : w.convert s.line text = .ok w') :
    ReportedOnce s w w' := by
  have hsheet := Walk.sheet_convert h
  obtain ⟨⟨lines, after⟩, hstatement, h⟩ := exists_of_bind_eq_ok h
  cases h
  have htrim : trim text ⊆ s.text := Subset.trans (trim_subset text) htext
  rcases statement_cases hstatement with hkept | ⟨tried, htried, hleft⟩
  · exact quiet (.quiet (Context.diagnostics_of_standing hkept) hsheet)
  have hdiagnostics := Context.diagnostics_of_standing htried
  rw [leftOver] at hleft
  split_ifs at hleft
  · cases hleft
    refine ⟨some ⟨s.line, todoReason, trim text⟩, ⟨?_, ?_⟩, ?_⟩
    · exact congrArg (· ++ [_]) hdiagnostics
    · have hannounced : todoLines [⟨s.line, todoReason, trim text⟩] = ["// TODO: " ++ trim text] := by
        simp [todoLines]
      rw [Sheet.bodyTexts_emitAll, Option.toList_some, hannounced]
    · rintro _ ⟨⟩
      exact ⟨rfl, htrim⟩
  · cases hleft
    refine ⟨some ⟨s.line, "no pattern match", trim text⟩, ?_, ?_⟩
    · have hreason : ("no pattern match" : Text) ≠ todoReason := by decide
      exact .of_calls (congrArg (· ++ [_]) hdiagnostics) hsheet (todoLines_of_ne hreason)
    · rintro _ ⟨⟩
      exact ⟨rfl, htrim⟩

end ReportedOnce

/-! ## Functions that report nothing -/

lemma typeReference_standing (type : Text) (ctx : Context) :
    (typeReference l type ctx).2.standing = ctx.standing := by
  simp only [typeReference]
  split_ifs
  · exact ctx.standing_importClass _
  · rfl

lemma typedParameters_standing (ps : List Parameter) (ctx : Context) :
    (typedParameters l ps ctx).2.standing = ctx.standing := by
  induction ps generalizing ctx with
  | nil => rfl
  | cons p rest ih => exact (ih _).trans (typeReference_standing l p.type ctx)

lemma methodHeader_standing (style : Style) (sig : Signature) (step : Option Step) (ctx : Context) : (methodHeader l style sig step ctx).2.standing = ctx.standing := by
  have htyped := typedParameters_standing l (parameters sig.params) ctx
  unfold methodHeader
  generalize typedParameters l (parameters sig.params) ctx = typed at htyped ⊢
  obtain ⟨typed, after⟩ := typed
  dsimp only at htyped ⊢
  split
  · exact htyped
  · exact (typeReference_standing l _ after).trans htyped

namespace Walk

variable (w : Walk) (l : Lookup) (recognizer : Option Recognizer)

lemma diagnostics_importClass (name : Text) :
    (w.onContext (·.importClass name)).context.diagnostics = w.context.diagnostics :=
  Context.diagnostics_of_standing (w.context.standing_importClass name)

lemma diagnostics_startMethod (info : ClassInfo) (style : Style) (sig : Signature) (annotations : List Text)
    : (w.startMethod l info style sig annotations).context.diagnostics = w.context.diagnostics := by
  have hheader := Context.diagnostics_of_standing
    (methodHeader_standing l style sig (stepAnnotation? annotations) w.context)
  refine (w.startMethod_kept l (π := (·.context.diagnostics)) (fun w f => ?_) ..).trans hheader
  exact w.diagnostics_importClass f.elementType

lemma reports_unwindFrames (frames : List Frame) : Reports [] w (unwindFrames recognizer w frames) := by
  refine .quiet ?_ (w.sheet_unwindFrames recognizer frames)
  rcases w.unwindFrames_context recognizer frames with hw | hw <;> exact (congrArg Context.diagnostics hw :)

lemma reports_count (s : Statement) : Reports [] w (w.count s) :=
  .quiet (congrArg Context.diagnostics (w.context_count s)) (w.sheet_count s)

/-! ## Statements -/

variable {w} {around : Surroundings} {w' : Walk} {s : Statement}

lemma openClass_reportedOnce (w : Walk) (l : Lookup) (s : Statement) (h : ClassHeader) :
    ReportedOnce s w (w.openClass l s h) := by
  have hsheet := w.sheet_openClass l s h
  by_cases hkind : h.kind = "class".toList
  · obtain ⟨info, style, -, -, -, hopen⟩ := w.openClass_eq l s h hkind
    obtain ⟨_, hstyle⟩ := (w.onContext (classContext l info style)).context_openStyle l info style
    have hdiagnostics : (w.openClass l s h).context.diagnostics = w.context.diagnostics := by
      rw [hopen]
      split_ifs <;> exact (congrArg Context.diagnostics hstyle :)
    exact .quiet (.quiet hdiagnostics hsheet)
  · refine .noted ("unsupported " ++ h.kind ++ " declaration") ?_ ?_ hsheet
    · intro hreason
      cases hreason
    · rw [openClass, if_pos hkind]
      rfl

lemma topLevel_reportedOnce (w : Walk) (l : Lookup) (s : Statement) (before : Nat) :
    ReportedOnce s w (w.topLevel l s before) := by
  have hpending : ∀ pending, Reports [] w { w with pending } := fun pending =>
    .same rfl rfl
  rcases w.topLevel_cases l s before with
    ⟨-, reason, hreason, htop⟩ | ⟨-, ⟨-, htop⟩ | ⟨-, ⟨h, -, htop⟩ | ⟨-, htop⟩⟩⟩
  · rw [htop]
    have hne : reason ≠ todoReason := by rcases hreason with rfl | rfl <;> decide
    exact .noted reason hne rfl (w.sheet.performAll_nil).symm
  · rw [htop]
    exact .quiet (hpending _)
  · rw [htop]
    exact .before (hpending _) (openClass_reportedOnce ..)
  · rw [htop]
    exact .before (hpending _) (.skip _ _ _ (by decide))

lemma field_reportedOnce (w : Walk) (l : Lookup) (s : Statement) (style : Style) (f : FieldHeader)
    (annotations : List Text) : ReportedOnce s w (w.field l s style f annotations) := by
  have hsheet := w.sheet_field l s style f annotations
  generalize hw : w.field l s style f annotations = w' at hsheet ⊢
  simp only [field, elementField] at hw
  split_ifs at hw
  · subst hw
    exact .noted "element field outside page object" (by decide) rfl hsheet
  · split at hw
    · subst hw
      exact .quiet (.quiet rfl hsheet)
    · subst hw
      exact .noted "element field without locator" (by decide) rfl hsheet
  · subst hw
    exact .quiet (.quiet rfl hsheet)
  · subst hw
    exact .noted "unsupported field" (by decide) rfl hsheet

lemma method_reportedOnce {info : ClassInfo} {sig : Signature} {annotations : List Text} {opened : Bool}
    (hending : sig.ending ⊆ s.text) (h : w.method around s info style sig annotations opened = .ok w') :
    ReportedOnce s w w' := by
  have hstarted : Reports [] w
      ((w.onSheet (·.blank)).startMethod around.lookup info style sig annotations) := by
    have hblank : Reports [] w (w.onSheet (·.blank)) := .perform .blank rfl rfl
    exact hblank.trans (.quiet (diagnostics_startMethod ..) (sheet_startMethod ..))
  rcases method_cases h with ⟨-, rfl | rfl⟩ | ⟨-, rfl, rfl⟩ | ⟨-, rfl, after, hafter, rfl⟩
  · exact .skip s w opened (by decide)
  · exact .noted "abstract method" (by decide) rfl (w.sheet.performAll_nil).symm
  · exact .quiet (hstarted.trans (.same rfl rfl))
  · -- The body is converted, and the method is left on the same line.
    have hbody : ReportedOnce s
        ((w.onSheet (·.blank)).startMethod around.lookup info style sig annotations) after := by
      split_ifs at hafter
      · cases hafter
        exact .quiet (.same rfl rfl)
      · have hinline : inlineBody (trim sig.ending) ⊆ s.text := by
          have hsubset : inlineBody (trim sig.ending) ⊆ trim sig.ending := by
            unfold inlineBody
            split
            · rename_i r hr
              rw [hr]
              exact subset_cons_of_subset _ (Subset.trans (trim_subset _) (dropEnd_subset _ r))
            · exact nil_subset _
          exact Subset.trans hsubset (Subset.trans (trim_subset _) hending)
        exact .convert hinline hafter
    have hclose : Reports [] after (after.onSheet (·.closeScope)) := .perform .closeScope rfl rfl
    have hfinish : Reports [] (after.onSheet (·.closeScope)) ((after.onSheet
        (·.closeScope)).finishMethod around.recognizer sig.name (w.onSheet (·.blank)).sheet.mark) :=
      .quiet (congrArg Context.diagnostics (context_finishMethod ..) :) (sheet_finishMethod ..)
    exact (ReportedOnce.before hstarted hbody).after (hclose.trans hfinish)

lemma member_reportedOnce {info : ClassInfo} {bodyDepth : Nat}
    (h : w.member around s info style bodyDepth = .ok w') : ReportedOnce s w w' := by
  have hpending : Reports [] w { w with pending := [] } := .same rfl rfl
  rw [member_eq] at h
  cases memberPlace s info style with
  | waiting hcase =>
    rw [hcase] at h
    cases h
    exact .quiet (.same rfl rfl)
  | skipped reason hreason hcase =>
    rw [hcase] at h
    cases h
    have hne : ∀ reason ∈ (["exception class member", "nested class", "no pattern match"] : List Text),
        reason ≠ todoReason := by decide
    exact .before hpending (.skip _ _ _ (hne reason hreason))
  | method sig _ hsig hcase =>
    rw [hcase] at h
    exact .before hpending (method_reportedOnce
      (Subset.trans (signature?_parts hsig).2 (splitAnnotations_subset s.text)) h)
  | field f _ hcase =>
    rw [hcase] at h
    cases h
    exact .before hpending (field_reportedOnce ..)

lemma bodyStatement_reportedOnce {inBlock : Bool} (h : w.bodyStatement s inBlock = .ok w') :
    ReportedOnce s w w' := by
  have hheader : ∀ {t header : Text} {context : Context},
      controlHeader? w.context t = some (header, context) →
      context.diagnostics = w.context.diagnostics := fun h =>
    Context.diagnostics_of_standing (controlHeader?_standing h)
  have hsame : Reports [] w w := .same rfl rfl
  rcases bodyStatement_cases h with ⟨rest, rfl⟩ | rfl | rfl | ⟨text, htext, hconvert⟩
  · rcases w.closing_cases s inBlock rest with hclosing | ⟨header, context, hfound, hclosing⟩ | hclosing
    · rw [hclosing]
      exact .quiet hsame
    · have hsheet := w.sheet_closing s inBlock rest
      rw [hclosing] at hsheet ⊢
      exact .quiet (.quiet (hheader hfound) hsheet)
    · rw [hclosing]
      exact .todo s w
  · rcases w.opening_cases s with ⟨header, context, hfound, hopening⟩ | hopening
    · have hsheet := w.sheet_opening s
      rw [hopening] at hsheet ⊢
      exact .quiet (.quiet (hheader hfound) hsheet)
    · rw [hopening]
      exact (ReportedOnce.todo s w).after (.same rfl rfl)
  · exact .quiet hsame
  · exact .convert htext hconvert

lemma within_reportedOnce {before : Nat} {frame : Option Frame}
    (h : w.within around before s frame = .ok w') : ReportedOnce s w w' := by
  rcases within_cases h with rfl | ⟨-, rfl⟩ | ⟨-, rfl⟩ | ⟨_, _, inBlock, -, -, hbody⟩ |
    ⟨info, style, -, hmember⟩
  · exact .quiet (.same rfl rfl)
  · exact topLevel_reportedOnce ..
  · exact .todo s w
  · exact bodyStatement_reportedOnce hbody
  · exact member_reportedOnce hmember

/-- **One statement** adds at most one diagnostic, and a comment adds none. -/
lemma step_reportedOnce (h : w.step around s = .ok w') :
    Reports [] w w' ∨ (s.isComment = false ∧ ReportedOnce s w w') := by
  rcases step_cases h with ⟨-, rfl⟩ | ⟨hcode, inside, hinside, rfl⟩
  · left
    split_ifs
    · exact .perform (.emit (s.rawLines.map commentLine)) rfl rfl
    · exact .same rfl rfl
  · right
    refine ⟨hcode, ?_⟩
    exact (ReportedOnce.before (w.reports_count s) (within_reportedOnce hinside)).after
      (inside.reports_unwindFrames around.recognizer inside.frames)

/-- **A run.**  Its diagnostics are about some of the statements, in their order, none of them a
comment. -/
lemma foldlM_reports {statements : List Statement}
    (h : statements.foldlM (step around) w = .ok w') :
    ∃ new reported, Reports new w w' ∧ reported.Sublist statements ∧
      (∀ s ∈ reported, s.isComment = false) ∧ Forall₂ IsAbout new reported := by
  induction statements generalizing w with
  | nil =>
    cases h
    exact ⟨[], [], .same rfl rfl, nil_sublist _, by simp, .nil⟩
  | cons s rest ih =>
    obtain ⟨next, hnext, h⟩ := foldlM_cons_eq_ok.1 h
    obtain ⟨new, reported, hreports, hsublist, hcode, habout⟩ := ih h
    have hlater : Reports [] w next → ∃ new reported, Reports new w w' ∧
        reported.Sublist (s :: rest) ∧ (∀ s ∈ reported, s.isComment = false) ∧
        Forall₂ IsAbout new reported := fun hquiet =>
      ⟨new, reported, hquiet.trans hreports, hsublist.cons s, hcode, habout⟩
    rcases step_reportedOnce hnext with hquiet | ⟨hcomment, first, hfirst, hs⟩
    · exact hlater hquiet
    · cases first with
      | none => exact hlater hfirst
      | some d =>
        refine ⟨d :: new, s :: reported, hfirst.trans hreports, hsublist.cons_cons s, ?_, ?_⟩
        · exact forall_mem_cons.2 ⟨hcomment, hcode⟩
        · exact .cons (hs d rfl) habout

end Walk

/-! ## Files -/

lemma body_finishedSheet (w : Walk) : (Task.finishedSheet w).body = w.sheet.body := by
  have himports : ∀ (statements : List Text) (sheet : Sheet),
      (statements.foldl Sheet.addImport sheet).body = sheet.body := by
    intro statements
    induction statements with
    | nil => exact fun _ => rfl
    | cons statement rest ih => exact fun sheet => ih (sheet.addImport statement)
  exact himports _ _

variable {ds : List Diagnostic} {reported : List Statement}

lemma map_line_eq (h : Forall₂ IsAbout ds reported) :
    ds.map (·.line) = reported.map fun s => (s.line : Int) := by
  induction h with
  | nil => rfl
  | cons hd _ ih => rw [map_cons, map_cons, hd.1, ih]

lemma exists_isAbout (h : Forall₂ IsAbout ds reported) (hd : d ∈ ds) :
    ∃ s ∈ reported, IsAbout d s := by
  induction h with
  | nil => cases hd
  | cons hfirst _ ih =>
    rcases mem_cons.1 hd with rfl | hd
    · exact ⟨_, by simp, hfirst⟩
    · obtain ⟨s, hs, habout⟩ := ih hd
      exact ⟨s, by simp [hs], habout⟩

lemma statements_pairwise_line (d : Document) :
    d.statements.Pairwise fun s t => s.line < t.line := by
  have hidle : Reading.idle.Holds 1 [] := rfl
  obtain ⟨⟨groups, hspans, -⟩, hordered⟩ := statements_covers d.lines hidle
  have hle : ∀ s ∈ d.statements, s.line ≤ s.endLine := by
    rw [Document.statements]
    generalize Reading.idle.statements 1 d.lines = statements at hspans ⊢
    induction hspans with
    | nil => simp
    | cons hspan _ ih => exact forall_mem_cons.2 ⟨hspan.line_le_endLine, ih⟩
  exact hordered.imp_of_mem fun hs _ hlt => lt_of_le_of_lt (hle _ hs) hlt

/-- **Diagnostics account for the walk.**  For every source text they are about statements that are
no comments, with lines that strictly increase; and the comments that they announce stand in the
output, each on a line of its own and in the order of the diagnostics. -/
theorem diagnostics_account {t : Task} {source : Text} {o : Output}
    (hsource : t.document = .ofText source) (h : t.run = .ok o) :
    (o.diagnostics.map (·.line)).Pairwise (· < ·) ∧
    (∀ d ∈ o.diagnostics, ∃ s ∈ t.document.statements, s.isComment = false ∧ d.line = s.line) ∧
    (todoLines o.diagnostics).Sublist ((lines o.code).map trimLeft) := by
  obtain ⟨w, hw, h⟩ := exists_of_bind_eq_ok h
  cases h
  obtain ⟨new, reported, hreports, hsublist, hcode, habout⟩ := Walk.foldlM_reports hw
  have hnew : w.context.diagnostics = new := hreports.diagnostics
  have hmem : ∀ d ∈ new, ∃ s ∈ reported, IsAbout d s := fun d => exists_isAbout habout
  dsimp only
  rw [hnew]
  refine ⟨?_, ?_, ?_⟩
  · rw [map_line_eq habout, List.pairwise_map]
    exact ((statements_pairwise_line t.document).sublist hsublist).imp Int.ofNat_lt.2
  · intro d hd
    obtain ⟨s, hs, hline, -⟩ := hmem d hd
    exact ⟨s, hsublist.subset hs, hcode s hs, hline⟩
  · have hannounced : (todoLines new).Sublist (Task.finishedSheet w).bodyTexts := by
      rw [Sheet.bodyTexts, body_finishedSheet]
      exact hreports.announced
    have hshape : ∀ line ∈ todoLines new, ∃ d ∈ new, line = "// TODO: " ++ d.text := by
      intro line hline
      obtain ⟨d, hd, rfl⟩ := List.mem_map.1 hline
      exact ⟨d, List.mem_of_mem_filter hd, rfl⟩
    refine Sheet.sublist_lines_render hannounced ?_ ?_
    · intro line hline
      obtain ⟨d, hd, rfl⟩ := hshape line hline
      obtain ⟨s, hs, -, htext⟩ := hmem d hd
      have hs' : s ∈ (Document.ofText source).statements := hsource ▸ hsublist.subset hs
      have hstart : OneLine "// TODO: ".toList := by
        simp [OneLine, isLineEnd, lineEnds]
      exact hstart.append ((oneLine_of_mem_statements hs').mono htext)
    · intro line hline
      obtain ⟨d, -, rfl⟩ := hshape line hline
      exact ⟨'/', _, rfl, by decide⟩

/-- A statement over two lines, a brace that continues no block, a brace after a statement, and a
method on one line: four comments stand for them in the output. -/
theorem diagnostics_account_kept :
    let t : Task :=
      { document := .ofText ("import a.b;\r\nclass A \x7b\nvoid m() \x7b\nif (c) \x7b\nx y\n  z;\n" ++
          "// note\n\x7d while q \x7b\nr s; \x7d\n\x7d\nint n() \x7b t u; \x7d\n\x7d\n") }
    ∃ o, t.run = .ok o ∧ o.diagnostics.map (·.line) = [1, 5, 8, 9, 11] ∧
      (∀ d ∈ o.diagnostics, ∃ s ∈ t.document.statements, s.isComment = false ∧ d.line = s.line) ∧
      (["// TODO: x y z;", "// TODO: \x7d while q \x7b", "// TODO: r s;", "// TODO: t u;"] :
        List Text).Sublist ((lines o.code).map trimLeft) := by
  intro t
  have hrun : ∃ o, t.run = .ok o ∧ o.diagnostics.map (·.line) = [1, 5, 8, 9, 11] ∧
      todoLines o.diagnostics = (["// TODO: x y z;", "// TODO: \x7d while q \x7b", "// TODO: r s;",
        "// TODO: t u;"] : List Text) :=
    exists_of_any_toOption (by decide +kernel)
  obtain ⟨o, ho, hlines, htodos⟩ := hrun
  obtain ⟨-, hmem, hshown⟩ := diagnostics_account rfl ho
  exact ⟨o, ho, hlines, hmem, htodos ▸ hshown⟩

end Restage.Conversion
