import Restage.Proofs.Conversion.Places
import Restage.Proofs.Conversion.Recording
import Restage.Settings.Basic

/-!
# Statements that close what they open

Outside of all classes a statement with as many closing as opening braces is expected to leave
nothing open.  One kind of declaration does: a class whose body ends right after it starts.
Interfaces, enumerations, and classes with a member on the line of their header enter a construct
whose body lies where the source already is, and no brace of theirs closes it
(`Walk.frames_step_eq_nil_iff`).  At the top of a file that construct is open to the end, and every
class below it is lost.
-/

namespace Restage

open Text Java TypeScript List

/-- A comment, or a statement that closes what it opens and declares nothing but a class that ends
at once. -/
def Java.Statement.IsComplete (s : Statement) : Prop :=
  s.isComment = true ∨ s.opens = s.closes ∧ ∀ h ∈ s.classHeader?, h.EndsAtOnce

instance (s : Statement) : Decidable s.IsComplete := inferInstanceAs (Decidable (_ ∨ _))

namespace Conversion

def Lookup.declaredStyle (l : Lookup) (h : ClassHeader) : Style :=
  Style.ofRoles (l.roles ((l.own? h.name).getD { name := h.name }))

namespace Walk

variable {around : Surroundings} {w w' : Walk} {s : Statement} (l : Lookup)
  {statements : List Statement}

/-- A class is converted: its header is written, unless it is a class of steps, which has none. -/
def ConvertsClass (around : Surroundings) (w : Walk) (s : Statement) (h : ClassHeader) : Prop :=
  around.lookup.declaredStyle h = .steps ∨ ∃ clause : Text,
    .openScope ("export class " ++ h.name ++ clause ++ " \x7b") "\x7d" ∈ stepCalls around w s

/-! ## One statement outside of all constructs -/

/-- Only a method that is left can break the walk. -/
lemma broken_unwindFrames (recognizer : Option Recognizer) {frames : List Frame}
    (h : NoMethods frames) : (unwindFrames recognizer w frames).broken = w.broken := by
  induction frames generalizing w with
  | nil => rfl
  | cons f outer ih =>
    have hleave : (w.leave recognizer f.construct).broken = w.broken := by
      cases hconstruct : f.construct with
      | method name mark => exact absurd (by rw [hconstruct]; rfl) (h f mem_cons_self)
      | classBody info style => cases style <;> rfl
      | skipped | block | commented => rfl
    rw [unwindFrames]
    split_ifs
    · rw [ih fun g hg => h g (mem_cons_of_mem _ hg), hleave]
    · rfl

lemma exists_step_outside (around : Surroundings) (s : Statement) (hnone : w.frames = [])
    (hwhole : w.broken = none) : ∃ w', w.step around s = .ok w' := by
  rw [step]
  by_cases hcomment : s.isComment = true
  · exact ⟨_, if_pos hcomment⟩
  have hcounted : (w.count s).frames = [] := (w.frames_count s).trans hnone
  have hunbroken : (w.count s).broken = none :=
    (congrArg broken (w.bare.count_on w.place s)).trans hwhole
  rw [if_neg hcomment, hnone, head?_nil]
  cases hclosers : isClosersOnly s.text with
  | true =>
    rw [within_of_closers hclosers rfl]
    have hframes : NoMethods (w.count s).frames := by simp [NoMethods, hcounted]
    exact ⟨_, checked_eq_ok_iff.2 ⟨(broken_unwindFrames _ hframes).trans hunbroken, rfl⟩⟩
  | false =>
    rw [within_none hclosers]
    have hframes := noMethods_topLevel hcounted around.lookup s w.depth
    have htop := (w.count s).bare.topLevel_on (w.count s).place around.lookup s w.depth
    rw [bare_on_place] at htop
    have hinside : ((w.count s).topLevel around.lookup s w.depth).broken = none := by
      rw [htop]
      exact hunbroken
    exact ⟨_, checked_eq_ok_iff.2 ⟨(broken_unwindFrames _ hframes).trans hinside, rfl⟩⟩

lemma frames_topLevel_of_none {before : Nat} (heven : w.depth ≤ before)
    (hheader : s.classHeader? = none) : (w.topLevel l s before).frames = w.frames := by
  rcases topLevel_cases w l s before with ⟨-, _, -, h⟩ | ⟨-, ⟨-, h⟩ | ⟨-, ⟨_, hsome, -⟩ | ⟨-, h⟩⟩⟩
  · rw [h]
    rfl
  · rw [h]
  · cases hheader.symm.trans hsome
  · rw [h, skip, if_neg (by simpa using heven)]
    rfl

/-- **One complete statement** leaves nothing open exactly if it declares no class that goes on. -/
lemma frames_step_eq_nil_iff (hnone : w.frames = []) (hcode : s.isComment = false)
    (heven : s.opens = s.closes) (h : w.step around s = .ok w') :
    w'.frames = [] ↔ ∀ header ∈ s.classHeader?, header.EndsAtOnce := by
  obtain ⟨inside, hinside, rfl⟩ := step_outside hnone hcode h
  rw [(unwindFrames_spec ..).2.2]
  have hdepth : (w.count s).depth = w.depth := by
    rw [depth_count]
    omega
  have hcounted : (w.count s).frames = [] := (w.frames_count s).trans hnone
  cases hheader : s.classHeader? with
  | none =>
    have hframes : inside.frames = [] := by
      rcases hinside with ⟨-, rfl⟩ | ⟨-, rfl⟩
      · exact hcounted
      · exact (frames_topLevel_of_none around.lookup (by omega) hheader).trans hcounted
    rw [hframes]
    simp
  | some header =>
    obtain ⟨-, rfl⟩ := hinside.resolve_left (by simp [not_closers_of_classHeader? hheader])
    rw [topLevel_of_classHeader _ _ _ hheader]
    by_cases hends : header.EndsAtOnce
    · rw [frames_openClass_of_endsAtOnce _ _ _ hends, show ({ w.count s with pending := [] } :
        Walk).frames = [] from hcounted]
      simpa using hends
    · obtain ⟨c, hframes⟩ := frames_openClass { w.count s with pending := [] } around.lookup s hends
      rw [hframes]
      simpa using hends

/-- The header of a class is written first, unless it is a class of steps. -/
lemma exists_header_styleCalls (info : ClassInfo) (bound : Bool) {style : Style}
    (hstyle : style ≠ .steps) : ∃ clause : Text,
      .openScope ("export class " ++ info.name ++ clause ++ " \x7b") "\x7d" ∈
        styleCalls l info bound style := by
  cases style with
  | steps => exact absurd rfl hstyle
  | exception => exact ⟨_, mem_cons_self⟩
  | page =>
    rw [styleCalls, pageCalls]
    cases (l.parent? info).filter fun p => l.isPageType p.name with
    | none => exact ⟨_, mem_cons_self⟩
    | some parent => exact ⟨_, mem_cons_self⟩

lemma convertsClass_outside (hnone : w.frames = []) (hcode : s.isComment = false)
    {header : ClassHeader} (hheader : s.classHeader? = some header)
    (hkind : header.kind = "class".toList) : ConvertsClass around w s header := by
  obtain ⟨⟨hpackage, himport⟩, htext⟩ := noHeading_of_classHeader? hheader
  have hwithin : withinCalls around (w.count s) w.depth s none =
      openClassCalls around.lookup header (w.count s).bound := by
    unfold withinCalls
    rw [if_neg (by simp [not_closers_of_classHeader? hheader])]
    rw [Statement.classHeader?] at hheader
    simp [topLevelCalls, hpackage, himport, htext, hheader]
  by_cases hsteps : around.lookup.declaredStyle header = .steps
  · exact .inl hsteps
  obtain ⟨clause, hclause⟩ := exists_header_styleCalls around.lookup
    ((around.lookup.own? header.name).getD { name := header.name }) (w.count s).bound hsteps
  rw [Lookup.name_getD_own?] at hclause
  refine .inr ⟨clause, ?_⟩
  rw [stepCalls, if_neg (by simp [hcode]), hnone, head?_nil, hwithin, openClassCalls,
    if_neg (by simp [hkind])]
  exact mem_append_left _ (mem_append_right _ (mem_append_left _ hclause))

/-! ## Runs -/

/-- **Complete statements** are taken, one after another, and leave nothing open. -/
lemma exists_foldlM_of_isComplete (hnone : w.frames = []) (hwhole : w.broken = none)
    (hcomplete : ∀ s ∈ statements, s.IsComplete) :
    ∃ w', statements.foldlM (step around) w = .ok w' ∧ w'.frames = [] := by
  induction statements generalizing w with
  | nil => exact ⟨w, rfl, hnone⟩
  | cons s rest ih =>
    obtain ⟨next, hnext⟩ := exists_step_outside around s hnone hwhole
    have hstill : next.frames = [] := by
      rcases hcomplete s mem_cons_self with hcomment | ⟨heven, hends⟩
      · rw [(step_comment hcomment hnext).1, hnone]
      cases hcode : s.isComment with
      | true => rw [(step_comment hcode hnext).1, hnone]
      | false => exact (frames_step_eq_nil_iff hnone hcode heven hnext).2 hends
    obtain ⟨w', hrest, hw'⟩ := ih hstill (broken_step hwhole hnext) fun s hs =>
      hcomplete s (mem_cons_of_mem _ hs)
    exact ⟨w', foldlM_cons_eq_ok.2 ⟨next, hnext, hrest⟩, hw'⟩

lemma Nests.outermost_foldlM (hn : w.Nests) {f : Frame} (hf : w.frames.getLast? = some f)
    (hdepth : f.depth = 0) (hwalk : statements.foldlM (Walk.step around) w = .ok w') : w'.frames.getLast? = some f := by
  refine (foldlM_invariant (P := fun w => w.Nests ∧ w.frames.getLast? = some f) ?_ hwalk ⟨hn, hf⟩).2
  rintro w next s ⟨hn, hf⟩ hnext
  refine ⟨hn.step hnext, ?_⟩
  cases hcode : s.isComment with
  | true => rw [(step_comment hcode hnext).1, hf]
  | false => exact hn.outermost_stays hcode hnext hf (by omega)

end Walk

/-- **What a complete statement leaves open.**  Outside of all constructs a statement with as many
closing as opening braces can always be taken, and it leaves nothing open exactly if a class that it
declares ends at once.  If nothing is open, the classes that follow are converted, with any number
of complete statements between.  If something is, and no brace of the source was open, it stays open
whatever follows. -/
theorem nothing_open_after_complete_iff (t : Task) (seen : List Statement) (s : Statement) (w : Walk)
    (hwalk : seen.foldlM (Walk.step t.surroundings) t.start = .ok w) (hnone : w.frames = [])
    (hcode : s.isComment = false) (heven : s.opens = s.closes) :
    ∃ w', w.step t.surroundings s = .ok w' ∧
      (w'.frames = [] ↔ ∀ header ∈ s.classHeader?, header.EndsAtOnce) ∧
      (w'.frames = [] → ∀ between : List Statement, (∀ b ∈ between, b.IsComplete) →
        ∃ outside, between.foldlM (Walk.step t.surroundings) w' = .ok outside ∧
          ∀ next header, next.isComment = false → next.classHeader? = some header →
            header.kind = "class".toList → outside.ConvertsClass t.surroundings next header ∧
              ∃ w'', outside.step t.surroundings next = .ok w'') ∧
      (w'.frames ≠ [] → w.depth = 0 → ∃ f, ∀ (after : List Statement) (w'' : Walk),
        after.foldlM (Walk.step t.surroundings) w' = .ok w'' → w''.frames.getLast? = some f) := by
  have hn : w.Nests := t.start_nests.foldlM hwalk
  have hwhole := Walk.broken_foldlM rfl hwalk
  obtain ⟨w', hstep⟩ := Walk.exists_step_outside t.surroundings s hnone hwhole
  have hwhole' := Walk.broken_step hwhole hstep
  refine ⟨w', hstep, Walk.frames_step_eq_nil_iff hnone hcode heven hstep, ?_, ?_⟩
  · intro hnone' between hcomplete
    obtain ⟨outside, hbetween, hnone''⟩ :=
      Walk.exists_foldlM_of_isComplete hnone' hwhole' hcomplete
    have hwhole'' := Walk.broken_foldlM hwhole' hbetween
    refine ⟨outside, hbetween, fun next header hnext hheader hkind => ⟨?_, ?_⟩⟩
    · exact Walk.convertsClass_outside hnone'' hnext hheader hkind
    · exact Walk.exists_step_outside t.surroundings next hnone'' hwhole''
  · intro hopen hzero
    cases hlast : w'.frames.getLast? with
    | none => exact absurd (List.getLast?_eq_none_iff.1 hlast) hopen
    | some f =>
      obtain ⟨-, -, hf⟩ := hn.outermost_opened hstep hnone hlast
      have hdepth := (hn.frames_step hcode hstep).1
      refine ⟨f, fun after w'' hafter => ?_⟩
      exact (hn.step hstep).outermost_foldlM hlast (by omega) hafter

/-- A class that ends at once, after a package declaration and before a comment: the next class is
converted. -/
theorem nothing_open_after_complete_class :
    let t : Task :=
      { document := ⟨["package p;", "class X \x7b\x7d", "// A page.", "class A \x7b", "\x7d"]⟩ }
    ∃ s comment next w w' outside header, t.document.statements.take 4 =
        t.document.statements.take 1 ++ [s, comment, next] ∧
      (t.document.statements.take 1).foldlM (Walk.step t.surroundings) t.start = .ok w ∧
      w.frames = [] ∧ s.isComment = false ∧ s.opens = s.closes ∧ 0 < s.opens ∧
      w.step t.surroundings s = .ok w' ∧ w'.frames = [] ∧
      w'.step t.surroundings comment = .ok outside ∧ next.classHeader? = some header ∧
      header.name = "A".toList ∧ outside.ConvertsClass t.surroundings next header := by
  intro t
  obtain ⟨s, hs⟩ : ∃ s, s = t.document.statements.get ⟨1, by decide +kernel⟩ := ⟨_, rfl⟩
  obtain ⟨comment, hcomment⟩ : ∃ s, s = t.document.statements.get ⟨2, by decide +kernel⟩ := ⟨_, rfl⟩
  obtain ⟨next, hnext⟩ : ∃ s, s = t.document.statements.get ⟨3, by decide +kernel⟩ := ⟨_, rfl⟩
  obtain ⟨hdocument, ⟨hcode, heven, hopens, hends⟩, hcomplete, hdeclares, hnextCode⟩ :
      t.document.statements.take 4 = t.document.statements.take 1 ++ [s, comment, next] ∧
      (s.isComment = false ∧ s.opens = s.closes ∧ 0 < s.opens ∧
        ∀ header ∈ s.classHeader?, header.EndsAtOnce) ∧
      comment.IsComplete ∧ (∃ header ∈ next.classHeader?, header.name = "A".toList ∧
        header.kind = "class".toList) ∧ next.isComment = false := by
    rw [hs, hcomment, hnext]
    decide +kernel
  obtain ⟨header, hheader, hname, hkind⟩ := hdeclares
  obtain ⟨w, hwalk, hnone⟩ : ∃ w,
      (t.document.statements.take 1).foldlM (Walk.step t.surroundings) t.start = .ok w ∧
        w.frames = [] := by
    rw [t.surroundings_of_sorted (by decide +kernel)]
    exact exists_of_any_toOption (by decide +kernel)
  obtain ⟨w', hstep, hiff, hconverts, -⟩ :=
    nothing_open_after_complete_iff t _ s w hwalk hnone hcode heven
  have hnone' := hiff.2 hends
  obtain ⟨outside, hbetween, hclasses⟩ := hconverts hnone' [comment] (by simpa using hcomplete)
  obtain ⟨_, hcommentStep, hdone⟩ := foldlM_cons_eq_ok.1 hbetween
  cases hdone
  exact ⟨s, comment, next, w, w', outside, header, hdocument, hwalk, hnone, hcode, heven, hopens, hstep,
    hnone', hcommentStep, hheader, hname, (hclasses next header hnextCode hheader hkind).1⟩

/-- An interface on one line: it is never left, and the class below it is not converted. -/
theorem class_lost_below_interface :
    let t : Task :=
      { document := ⟨["interface I \x7b\x7d", "class A \x7b", "void m() \x7b", "\x7d", "\x7d"]⟩
        baseImports := ({} : Settings).baseImports }
    ∃ s w' o, t.document.statements.head? = some s ∧ t.start.frames = [] ∧ s.isComment = false ∧
      s.opens = s.closes ∧ t.start.step t.surroundings s = .ok w' ∧
      w'.frames = [⟨.skipped, 0⟩] ∧ t.run = .ok o ∧ o.classes.map (·.name) = ["I", "A"] ∧
      lines o.code = t.baseImports ++ [[]] := by
  intro t
  obtain ⟨s, hs⟩ : ∃ s, s = t.document.statements.get ⟨0, by decide +kernel⟩ := ⟨_, rfl⟩
  obtain ⟨hhead, hcode, heven⟩ : t.document.statements.head? = some s ∧ s.isComment = false ∧
      s.opens = s.closes := by
    rw [hs]
    decide +kernel
  have hsorted := t.surroundings_of_sorted (by decide +kernel)
  obtain ⟨w', hstep, hframes⟩ : ∃ w', t.start.step t.surroundings s = .ok w' ∧
      w'.frames = [⟨.skipped, 0⟩] := by
    rw [hsorted, hs]
    exact exists_of_any_toOption (by decide +kernel)
  obtain ⟨final, hwalk, hlines⟩ : ∃ final, t.walk = .ok final ∧
      lines (Task.finishedSheet final).render = t.baseImports ++ [[]] := by
    rw [Task.walk, hsorted]
    exact exists_of_any_toOption (by decide +kernel)
  have hclasses : t.surroundings.lookup.classes.map (·.name) = (["I", "A"] : List Text) := by
    rw [hsorted]
    decide +kernel
  obtain ⟨o, hrun, hlines, hclasses⟩ : ∃ o, t.run = .ok o ∧ lines o.code = t.baseImports ++ [[]] ∧
      o.classes.map (·.name) = (["I", "A"] : List Text) := by
    rw [Task.run, hwalk]
    exact ⟨_, rfl, hlines, hclasses⟩
  exact ⟨s, w', o, hhead, rfl, hcode, heven, hstep, hframes, hrun, hclasses, hlines⟩

end Conversion

end Restage
