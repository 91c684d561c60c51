import Mathlib.Algebra.Ring.Int.Defs
import Restage.Proofs.Project.Analysis

/-!
# Top-level classes and their members

A class that is declared where all braces are closed should get a record, and the members in the
record should be those between the declaration and the statement that closes the class.  The
analysis looks for the end of a class only when a statement declares nothing and stands outside of
all methods.  A statement that ends the body of a method together with the class, as `} }` does, is
taken for the end of the method alone.  The class stays open, the next class is overlooked, and its
members are entered into the record of the first (`class_overlooked`).

`top_level_class_recorded` says when that happens: a declaration is overlooked exactly if the
statement that closed the last open brace before it was absorbed (`Analysis.absorbs`), and the
members of a class that is not overlooked come from its own statements unless the statement that
closes it is absorbed.
-/

namespace Restage

open Text Java List

/-! ## The running sum of the braces -/

/-- What a statement adds to the running sum of the braces.  Comments do not count. -/
def Java.Statement.change (s : Statement) : Int := if s.isComment then 0 else s.balance

/-- The sum of the braces over some statements. -/
def braceSum (statements : List Statement) : Int := (statements.map (·.change)).sum

/-- The statements before the one after which the sum is back to zero, and that one, if there is
one. -/
def blockFrom (sum : Int) : List Statement → List Statement × Option Statement
  | [] => ([], none)
  | s :: rest =>
    if sum = 0 then ([], none)
    else if sum + s.change = 0 then ([], some s)
    else (s :: (blockFrom (sum + s.change) rest).1, (blockFrom (sum + s.change) rest).2)

lemma braceSum_cons (s : Statement) (rest : List Statement) :
    braceSum (s :: rest) = s.change + braceSum rest := by
  simp [braceSum]

lemma braceSum_append (earlier later : List Statement) :
    braceSum (earlier ++ later) = braceSum earlier + braceSum later := by
  simp [braceSum]

/-- A block ends where the sum is back to zero, with a statement that is no comment, or it goes on
to the end. -/
lemma blockFrom_spec (sum : Int) (statements : List Statement) : ∃ after,
    statements = (blockFrom sum statements).1 ++ (blockFrom sum statements).2.toList ++ after ∧
    ((blockFrom sum statements).2 = none → after = [] ∨ sum = 0 ∧ (blockFrom sum statements).1 = []) ∧
    ∀ e ∈ (blockFrom sum statements).2, e.isComment = false ∧
      sum + braceSum ((blockFrom sum statements).1 ++ [e]) = 0 := by
  induction statements generalizing sum with
  | nil => exact ⟨[], rfl, fun _ => .inl rfl, by simp [blockFrom]⟩
  | cons s rest ih =>
    rw [blockFrom]
    split_ifs with hzero hback
    · exact ⟨s :: rest, rfl, fun _ => .inr ⟨hzero, rfl⟩, by simp⟩
    · refine ⟨rest, rfl, by simp, ?_⟩
      rintro _ ⟨⟩
      refine ⟨?_, by simpa [braceSum] using hback⟩
      by_contra hcomment
      rw [Statement.change, if_pos (by simpa using hcomment)] at hback
      omega
    · obtain ⟨after, hrest, hnone, hsome⟩ := ih (sum + s.change)
      refine ⟨after, congrArg (s :: ·) hrest, fun h => ?_, fun e he => ?_⟩
      · refine .inl ((hnone h).resolve_right ?_)
        rintro ⟨hsum, -⟩
        exact hback hsum
      · obtain ⟨hcode, hsum⟩ := hsome e he
        refine ⟨hcode, ?_⟩
        rw [cons_append, braceSum_cons]
        omega

variable {seen later : List Statement} {m : MethodInfo}

namespace Analysis

variable {a : Analysis} {s : Statement}

lemma depth_step_eq_add_change (a : Analysis) (s : Statement) :
    (a.step s).depth = a.depth + s.change := by
  rw [Statement.change]
  split_ifs with hcomment
  · rw [step_comment hcomment, Int.add_zero]
  · exact depth_step (by simpa using hcomment)

lemma depth_foldl (a : Analysis) (statements : List Statement) :
    (statements.foldl step a).depth = a.depth + braceSum statements := by
  induction statements generalizing a with
  | nil => exact (Int.add_zero _).symm
  | cons s rest ih =>
    rw [foldl_cons, ih, depth_step_eq_add_change, braceSum_cons]
    omega

/-! ## Statements that are absorbed -/

/-- A statement is absorbed if it belongs to the body of a method, or declares something directly in
the innermost class.  The classes that are open are then not looked through for ends. -/
def absorbs (a : Analysis) (s : Statement) : Bool :=
  match a.method, a.stack with
  | some _, _ => true
  | none, [] => false
  | none, c :: _ =>
    let text := (splitAnnotations s.text).2
    decide (a.depth = c.bodyDepth) && (text.isEmpty || s.classHeader?.isSome
      || (signature? (some c.name) text).isSome || (field? text).isSome)

/-- Whether the last statement that is no comment is absorbed; `last` is the answer for what came
before. -/
def absorbsLast (a : Analysis) (last : Bool) : List Statement → Bool
  | [] => last
  | s :: rest => absorbsLast (a.step s) (if s.isComment then last else a.absorbs s) rest

lemma absorbsLast_concat (a : Analysis) (last : Bool) (statements : List Statement)
    (hcode : s.isComment = false) :
    a.absorbsLast last (statements ++ [s]) = (statements.foldl step a).absorbs s := by
  induction statements generalizing a last with
  | nil => exact if_neg (by simp [hcode])
  | cons t rest ih => exact ih (a.step t) _

/-- All braces are closed after some statements, and the last of them was absorbed. -/
def Overlooks (statements : List Statement) : Prop :=
  braceSum statements = 0 ∧ absorbsLast {} false statements = true

instance (statements : List Statement) : Decidable (Overlooks statements) :=
  inferInstanceAs (Decidable (_ ∧ _))

lemma method_step (hcode : s.isComment = false) : ∀ m ∈ (a.step s).method,
    (a.step s).stack = a.stack ∧ m.openDepth < (a.step s).depth ∧
      ((∃ before, a.method = some before ∧ m = { before with body := before.body ++ s.rawLines }) ∨
        ∃ c sig, a.stack.head? = some c ∧ m.openDepth = c.bodyDepth ∧
          signature? (some c.name) (splitAnnotations s.text).2 = some sig ∧
          m.info = methodInfo sig (a.pending ++ (splitAnnotations s.text).1) ∧ m.body = []) := by
  have hstep : Step a s (a.step s) := step_step hcode
  generalize a.step s = a' at hstep
  cases hstep with
  | inBody m hm hdepth =>
    rintro _ ⟨⟩
    exact ⟨rfl, Int.not_le.1 hdepth, .inl ⟨m, hm, rfl⟩⟩
  | endsBody => rintro _ ⟨⟩
  | elsewhere hm | heading _ _ hm | annotations hm | other hm =>
    intro m hm'
    cases hm.symm.trans hm'
  | declaresClass header hm =>
    rw [declareClass]
    intro m hm'
    split_ifs at hm' <;> cases hm.symm.trans hm'
  | declaresMethod c outer sig annotations hm hstack hlevel hsig hannotations =>
    rw [declareMethod]
    split_ifs with hopens
    · rintro _ ⟨⟩
      refine ⟨rfl, hopens, .inr ⟨c, sig, by rw [hstack]; rfl, hlevel, hsig, ?_, rfl⟩⟩
      rw [← hannotations]
    · rw [addMethod, updateTop_eq]
      intro m hm'
      cases hm.symm.trans hm'
  | declaresField c outer f hm =>
    rw [addField, updateTop_eq]
    intro m hm'
    cases hm.symm.trans hm'

/-- The classes and the method that are open lie inside of braces. -/
structure Grounded (a : Analysis) : Prop where
  nonneg : 0 ≤ a.depth
  inside : ∀ d ∈ a.depths, 0 < d
  inMethod : ∀ m ∈ a.method, 0 < m.openDepth ∧ m.openDepth < a.depth ∧ a.stack ≠ []

namespace Grounded

/-- **One statement** that closes nothing that is not open. -/
lemma step (h : a.Grounded) (hcovered : 0 ≤ (a.step s).depth) : (a.step s).Grounded := by
  cases hcomment : s.isComment with
  | true =>
    rw [step_comment hcomment] at hcovered ⊢
    refine ⟨hcovered, h.inside, fun m hm => ?_⟩
    obtain ⟨m', hm', rfl⟩ := Option.map_eq_some_iff.1 hm
    exact h.inMethod m' hm'
  | false =>
    refine ⟨hcovered, fun d hd => ?_, fun m hm => ?_⟩
    · rcases depths_step hcomment d hd with hd | ⟨rfl, hrises⟩
      · exact h.inside d hd
      · have := h.nonneg
        omega
    · obtain ⟨hstack, hdepth, ⟨before, hbefore, rfl⟩ | ⟨c, -, hc, hlevel, -⟩⟩ := method_step hcomment m hm
      · exact ⟨(h.inMethod before hbefore).1, hdepth, hstack ▸ (h.inMethod before hbefore).2.2⟩
      · have hmem : c ∈ a.stack := mem_of_mem_head? hc
        refine ⟨hlevel ▸ h.inside _ (mem_map.2 ⟨c, hmem, rfl⟩), hdepth, ?_⟩
        exact hstack ▸ ne_nil_of_mem hmem

lemma method_eq_none (h : a.Grounded) (hzero : a.depth = 0) : a.method = none := by
  cases hm : a.method with
  | none => rfl
  | some m =>
    have := h.inMethod m hm
    omega

/-- **Where the braces are closed**, no class is left open exactly if the last statement was not
absorbed. -/
lemma stack_step_eq_nil_iff (h : a.Grounded) (hcode : s.isComment = false)
    (hzero : (a.step s).depth = 0) : (a.step s).stack = [] ↔ a.absorbs s = false := by
  have hcounted : a.depth + s.balance = 0 := (depth_step hcode).symm.trans hzero
  have hended : ∀ stack : List OpenClass, stack = a.stack →
      stack.dropWhile (a.depth + s.balance < ·.bodyDepth) = [] := by
    rintro _ rfl
    refine dropWhile_eq_nil_iff.2 fun c hc => decide_eq_true ?_
    have := h.inside c.bodyDepth (mem_map.2 ⟨c, hc, rfl⟩)
    omega
  have hstep : Step a s (a.step s) := step_step hcode
  generalize a.step s = a' at hstep
  cases hstep with
  | inBody m hm =>
    simpa [absorbs, hm, counted] using (h.inMethod m hm).2.2
  | endsBody m info hm =>
    rw [addMethod, updateTop_eq]
    simpa [absorbs, hm, counted] using (h.inMethod m hm).2.2
  | elsewhere hm hlevel =>
    rw [stack_closeClasses]
    refine iff_of_true (hended _ rfl) ?_
    obtain ⟨c, outer, hstack, hne⟩ := exists_of_atMemberLevel_eq_false hlevel
    simp [absorbs, hm, hstack, hne]
  | heading _ _ hm hstack =>
    exact iff_of_true hstack (by rw [absorbs, hm, hstack])
  | annotations hm hlevel htext =>
    rw [absorbs, hm]
    cases hstack : a.stack with
    | nil => exact iff_of_true hstack rfl
    | cons c outer =>
      have hdepth := (atMemberLevel_iff hstack a.depth).1 hlevel.level
      simp [counted, hstack, htext, hdepth]
  | declaresClass header hm hlevel _ hheader =>
    rw [absorbs, hm]
    cases hstack : a.stack with
    | nil =>
      rw [declareClass]
      split_ifs with hopens
      · -- The depth does not rise to zero.
        have hrises : a.depth < a.depth + s.balance := hopens
        have := h.nonneg
        omega
      · exact iff_of_true hstack rfl
    | cons c outer =>
      have hdepth := (atMemberLevel_iff hstack a.depth).1 hlevel.level
      rw [declareClass]
      split_ifs <;> simp [counted, hstack, Statement.classHeader?, hheader, hdepth]
  | declaresMethod c outer sig annotations hm hstack hlevel hsig =>
    have habsorbs : a.absorbs s = true := by simp [absorbs, hm, hstack, hlevel, hsig]
    rw [declareMethod]
    split_ifs
    · simp [counted, hstack, habsorbs]
    · rw [addMethod, updateTop_eq]
      simp [counted, hstack, habsorbs]
  | declaresField c outer f hm hstack hlevel _ _ _ hfield =>
    have habsorbs : a.absorbs s = true := by simp [absorbs, hm, hstack, hlevel, hfield]
    rw [addField, updateTop_eq]
    simp [counted, hstack, habsorbs]
  | other hm hlevel hnothing =>
    rw [stack_closeClasses]
    refine iff_of_true (hended _ rfl) ?_
    rw [absorbs, hm]
    cases hstack : a.stack with
    | nil => rfl
    | cons c outer =>
      obtain ⟨htext, hclass, hsig, hfield⟩ := hnothing c (by rw [hstack]; rfl)
      simp [htext, hclass, hsig, hfield]

/-- **A run** over statements that close nothing that is not open. -/
lemma foldl (h : a.Grounded) (last : Bool) (statements : List Statement)
    (hlast : a.depth = 0 → (a.stack = [] ↔ last = false))
    (hcovered : ∀ seen, seen <+: statements → 0 ≤ a.depth + braceSum seen) :
    (statements.foldl Analysis.step a).Grounded ∧
      ((statements.foldl Analysis.step a).depth = 0 →
        ((statements.foldl Analysis.step a).stack = [] ↔ a.absorbsLast last statements = false)) := by
  induction statements generalizing a last with
  | nil => exact ⟨h, hlast⟩
  | cons s rest ih =>
    have hafter : ∀ seen, seen <+: rest → 0 ≤ (a.step s).depth + braceSum seen := by
      intro seen hseen
      have := hcovered (s :: seen) (cons_prefix_cons.2 ⟨rfl, hseen⟩)
      rw [depth_step_eq_add_change]
      rw [braceSum_cons] at this
      omega
    have hstep : (a.step s).Grounded := by
      refine h.step ?_
      have := hafter [] nil_prefix
      simpa [braceSum] using this
    refine ih hstep _ (fun hzero => ?_) hafter
    cases hcomment : s.isComment with
    | true =>
      rw [step_comment hcomment] at hzero ⊢
      exact hlast hzero
    | false => exact h.stack_step_eq_nil_iff hcomment hzero

end Grounded

lemma grounded_of_covered (statements : List Statement)
    (hcovered : ∀ seen, seen <+: statements → 0 ≤ braceSum seen) :
    (statements.foldl step {}).Grounded ∧ (braceSum statements = 0 →
      ((statements.foldl step {}).stack = [] ↔ ¬Overlooks statements)) := by
  have hstart : ({} : Analysis).Grounded := ⟨Int.le_refl _, by simp [depths], by simp⟩
  obtain ⟨hgrounded, hstack⟩ := hstart.foldl false statements
    (fun _ => iff_of_true rfl rfl) (fun seen hseen => by simpa using hcovered seen hseen)
  refine ⟨hgrounded, fun hzero => ?_⟩
  rw [hstack (by rw [depth_foldl, hzero]; rfl), Overlooks]
  simp [hzero]

/-! ## What a statement does to the records -/

/-- What a statement enters into the record of the innermost class. -/
inductive EntersMember (a : Analysis) (s : Statement) (c : OpenClass) : OpenClass → Prop
  | finished (m : OpenMethod) : a.method = some m →
      EntersMember a s c { c with methods := c.methods ++ [{ m.info with
        rawBody := if s.text = "\x7d".toList then m.body else m.body ++ s.rawLines }] }
  | method (sig : Signature) : signature? (some c.name) (splitAnnotations s.text).2 = some sig →
      EntersMember a s c { c with methods := c.methods ++ [{
        methodInfo sig (a.pending ++ (splitAnnotations s.text).1) with
          rawBody := inlineBody sig.ending }] }
  | field (f : FieldHeader) : field? (splitAnnotations s.text).2 = some f →
      EntersMember a s c { c with fields := c.fields ++ [
        fieldInfo f (a.pending ++ (splitAnnotations s.text).1)] }

lemma EntersMember.name_eq {c c' : OpenClass} (h : EntersMember a s c c') : c'.name = c.name := by
  cases h <;> rfl

/-- The records after a statement: those before, one more, or those before with a member entered
into the innermost. -/
inductive RecordsAfter (a : Analysis) (s : Statement) : List OpenClass → Prop
  | same : RecordsAfter a s a.stack
  | declared (h : ClassHeader) (depth : Int) : s.classHeader? = some h →
      RecordsAfter a s (openClass h s.line depth :: a.stack)
  | entered (c c' : OpenClass) (outer : List OpenClass) : a.stack = c :: outer →
      a.absorbs s = true → EntersMember a s c c' → RecordsAfter a s (c' :: outer)

lemma modifyHead_recordsAfter {f : OpenClass → OpenClass} (habsorbs : a.absorbs s = true)
    (hf : ∀ c outer, a.stack = c :: outer → EntersMember a s c (f c)) :
    RecordsAfter a s (a.stack.modifyHead f) := by
  cases hstack : a.stack with
  | nil =>
    rw [modifyHead_nil, ← hstack]
    exact .same
  | cons c outer => exact .entered c (f c) outer hstack habsorbs (hf c outer hstack)

/-- **The records after a statement.**  `left` are those that it finishes. -/
lemma records_step (hcode : s.isComment = false) : ∃ left,
    (a.step s).finished = a.finished ++ left ∧ RecordsAfter a s (left ++ (a.step s).stack) := by
  have hclosed : ∀ b : Analysis, b.stack = a.stack → ∃ left,
      b.closeClasses.finished = b.finished ++ left ∧
        RecordsAfter a s (left ++ b.closeClasses.stack) := by
    intro b hb
    refine ⟨_, finished_closeClasses b, ?_⟩
    rw [stack_closeClasses, takeWhile_append_dropWhile, hb]
    exact .same
  have hkept : ∀ list : List OpenClass, list = list ++ [] := by simp
  have hstep : Step a s (a.step s) := step_step hcode
  generalize a.step s = a' at hstep
  cases hstep with
  | inBody | heading | annotations => exact ⟨[], hkept _, .same⟩
  | endsBody m info hm _ hinfo =>
    have habsorbs : a.absorbs s = true := by simp [absorbs, hm]
    rw [addMethod, updateTop_eq, hinfo]
    exact ⟨[], hkept _, modifyHead_recordsAfter habsorbs fun _ _ _ => .finished m hm⟩
  | elsewhere => exact hclosed (a.counted s) rfl
  | declaresClass header _ _ _ hheader =>
    rw [declareClass]
    split_ifs
    · exact ⟨[], hkept _, .declared header _ hheader⟩
    · exact ⟨_, rfl, .declared header _ hheader⟩
  | declaresMethod c outer sig annotations hm hstack hlevel hsig hannotations =>
    rw [declareMethod]
    split_ifs
    · exact ⟨[], hkept _, .same⟩
    · have habsorbs : a.absorbs s = true := by simp [absorbs, hm, hstack, hlevel, hsig]
      rw [addMethod, updateTop_eq, hannotations]
      refine ⟨[], hkept _, modifyHead_recordsAfter habsorbs fun c' outer' hstack' => ?_⟩
      obtain ⟨rfl, rfl⟩ := cons.inj (hstack.symm.trans hstack')
      exact .method sig hsig
  | declaresField c outer f hm hstack hlevel _ _ _ hfield =>
    have habsorbs : a.absorbs s = true := by simp [absorbs, hm, hstack, hlevel, hfield]
    rw [addField, updateTop_eq]
    exact ⟨[], hkept _, modifyHead_recordsAfter habsorbs fun _ _ _ => .field f hfield⟩
  | other => exact hclosed { a.counted s with pending := [] } rfl

lemma records_step_of_left (h : a.Grounded) (hcode : s.isComment = false) (hzero : a.depth = 0)
    (hleft : a.stack ≠ []) (module : Option Text) : (a.step s).records module = a.records module := by
  obtain ⟨c, outer, hstack⟩ := exists_cons_of_ne_nil hleft
  have hpos := h.inside _ (mem_depths hstack)
  have hlevel : (a.counted s).atMemberLevel a.depth = false := by
    have hsame : (a.counted s).stack = c :: outer := hstack
    rw [atMemberLevel, hsame]
    exact decide_eq_false (by omega)
  have hstep : a.step s = (a.counted s).closeClasses := by
    rw [step_eq hcode, h.method_eq_none hzero, hstack]
    rw [isEmpty_cons, if_neg Bool.false_ne_true, member, hlevel, if_neg Bool.false_ne_true]
  have hsame : (a.counted s).closeClasses.finished ++ (a.counted s).closeClasses.stack =
      a.finished ++ a.stack := by
    rw [finished_closeClasses, stack_closeClasses, append_assoc, takeWhile_append_dropWhile]
    rfl
  rw [hstep, records, hsame]
  rfl

/-! ## Where members come from -/

/-- The annotations of some statements. -/
def annotationsOf (seen : List Statement) : List Text :=
  seen.flatMap fun s => (splitAnnotations s.text).1

/-- A field that is declared by one of the statements, with annotations of theirs. -/
def FieldFrom (seen : List Statement) (f : FieldInfo) : Prop :=
  ∃ s ∈ seen, s.isComment = false ∧ ∃ header annotations,
    field? (splitAnnotations s.text).2 = some header ∧ annotations ⊆ annotationsOf seen ∧
      f = fieldInfo header annotations

/-- A method of a class of the given name that is declared by one of the statements, with
annotations of theirs.  Its body stands with the declaration or consists of lines of theirs. -/
def MethodFrom (seen : List Statement) (name : Text) (m : MethodInfo) : Prop :=
  ∃ s ∈ seen, s.isComment = false ∧ ∃ sig annotations body,
    signature? (some name) (splitAnnotations s.text).2 = some sig ∧
      annotations ⊆ annotationsOf seen ∧
      (body ⊆ seen.flatMap (·.rawLines) ∨ body = inlineBody sig.ending) ∧
      m = { methodInfo sig annotations with rawBody := body }

lemma annotationsOf_mono (h : seen ⊆ later) : annotationsOf seen ⊆ annotationsOf later := by
  intro x hx
  obtain ⟨s, hs, hx⟩ := mem_flatMap.1 hx
  exact mem_flatMap.2 ⟨s, h hs, hx⟩

lemma rawLines_mono (h : seen ⊆ later) : seen.flatMap (·.rawLines) ⊆ later.flatMap (·.rawLines) := by
  intro x hx
  obtain ⟨s, hs, hx⟩ := mem_flatMap.1 hx
  exact mem_flatMap.2 ⟨s, h hs, hx⟩

lemma FieldFrom.mono {f : FieldInfo} (hf : FieldFrom seen f) (h : seen ⊆ later) : FieldFrom later f := by
  obtain ⟨s, hs, hcode, header, annotations, hheader, hsubset, rfl⟩ := hf
  exact ⟨s, h hs, hcode, header, annotations, hheader, Subset.trans hsubset (annotationsOf_mono h), rfl⟩

lemma MethodFrom.mono {name : Text} (hm : MethodFrom seen name m) (h : seen ⊆ later) :
    MethodFrom later name m := by
  obtain ⟨s, hs, hcode, sig, annotations, body, hsig, hsubset, hbody, rfl⟩ := hm
  exact ⟨s, h hs, hcode, sig, annotations, body, hsig, Subset.trans hsubset (annotationsOf_mono h),
    hbody.imp_left (Subset.trans · (rawLines_mono h)), rfl⟩

lemma MethodFrom.withBody {name : Text} {body : List Text} (hm : MethodFrom seen name m)
    (hbody : body ⊆ seen.flatMap (·.rawLines)) : MethodFrom seen name { m with rawBody := body } := by
  obtain ⟨s, hs, hcode, sig, annotations, _, hsig, hsubset, -, rfl⟩ := hm
  exact ⟨s, hs, hcode, sig, annotations, body, hsig, hsubset, .inl hbody, rfl⟩

/-- The members in the record of a class come from some statements. -/
structure MembersFrom (seen : List Statement) (c : OpenClass) : Prop where
  fields : ∀ f ∈ c.fields, FieldFrom seen f
  methods : ∀ m ∈ c.methods, MethodFrom seen c.name m

lemma MembersFrom.mono {c : OpenClass} (hc : MembersFrom seen c) (h : seen ⊆ later) : MembersFrom later c :=
  ⟨fun f hf => (hc.fields f hf).mono h, fun m hm => (hc.methods m hm).mono h⟩

/-- All that has been gathered since the records `done` were finished comes from some statements.
One of the records since then has the given name. -/
structure Gathers (done : List OpenClass) (name : Text) (seen : List Statement) (a : Analysis) :
    Prop where
  pending : a.pending ⊆ annotationsOf seen
  method : ∀ m ∈ a.method, m.body ⊆ seen.flatMap (·.rawLines) ∧
    ∀ c ∈ a.stack.head?, MethodFrom seen c.name m.info
  records : ∃ left, a.finished = done ++ left ∧ (∃ c ∈ left ++ a.stack, c.name = name) ∧
    ∀ c ∈ left ++ a.stack, MembersFrom seen c

lemma pending_step_subset (a : Analysis) (s : Statement) :
    (a.step s).pending ⊆ a.pending ++ (splitAnnotations s.text).1 := by
  have hsame : a.pending ⊆ a.pending ++ (splitAnnotations s.text).1 := subset_append_left _ _
  cases hcomment : s.isComment with
  | true =>
    rw [step_comment hcomment]
    exact hsame
  | false =>
    have hstep : Step a s (a.step s) := step_step hcomment
    generalize a.step s = a' at hstep
    cases hstep with
    | inBody | elsewhere | heading => exact hsame
    | endsBody =>
      rw [addMethod, updateTop_eq]
      exact hsame
    | annotations => exact Subset.refl _
    | declaresClass =>
      rw [declareClass]
      split_ifs <;> exact nil_subset _
    | declaresMethod =>
      rw [declareMethod]
      split_ifs
      · exact nil_subset _
      · rw [addMethod, updateTop_eq]
        exact nil_subset _
    | declaresField =>
      rw [addField, updateTop_eq]
      exact nil_subset _
    | other => exact nil_subset _

namespace Gathers

variable {done : List OpenClass} {name : Text} {seen : List Statement}

variable (h : a.Gathers done name seen)
include h

lemma comment (hcomment : s.isComment = true) : (a.step s).Gathers done name (seen ++ [s]) := by
  have hseen : seen ⊆ seen ++ [s] := subset_append_left _ _
  obtain ⟨left, hfinished, hname, hmembers⟩ := h.records
  rw [step_comment hcomment]
  refine ⟨Subset.trans h.pending (annotationsOf_mono hseen), fun m hm => ?_, left, hfinished, hname,
    fun c hc => (hmembers c hc).mono hseen⟩
  obtain ⟨before, hbefore, rfl⟩ := Option.map_eq_some_iff.1 hm
  obtain ⟨hbody, hinfo⟩ := h.method before hbefore
  refine ⟨?_, fun c hc => (hinfo c hc).mono hseen⟩
  rw [flatMap_append]
  exact append_subset.2 ⟨Subset.trans hbody (subset_append_left _ _), by simp⟩

lemma annotations_subset (s : Statement) :
    a.pending ++ (splitAnnotations s.text).1 ⊆ annotationsOf (seen ++ [s]) := by
  rw [annotationsOf, flatMap_append]
  exact append_subset.2 ⟨Subset.trans h.pending (subset_append_left _ _), by simp⟩

lemma entersMember (hcode : s.isComment = false) {c c' : OpenClass} {outer : List OpenClass}
    (hstack : a.stack = c :: outer) (hc : MembersFrom seen c) (henters : EntersMember a s c c') :
    MembersFrom (seen ++ [s]) c' := by
  have hseen : seen ⊆ seen ++ [s] := subset_append_left _ _
  have hs : s ∈ seen ++ [s] := mem_append_right _ mem_cons_self
  obtain ⟨hfields, hmethods⟩ := hc.mono hseen
  cases henters with
  | finished m hm =>
    refine ⟨hfields, fun m' hm' => ?_⟩
    rcases mem_append.1 hm' with hm' | hm'
    · exact hmethods m' hm'
    rw [mem_singleton.1 hm']
    obtain ⟨hbody, hinfo⟩ := h.method m hm
    refine ((hinfo c (by rw [hstack]; rfl)).mono hseen).withBody ?_
    rw [flatMap_append]
    split_ifs
    · exact Subset.trans hbody (subset_append_left _ _)
    · exact append_subset.2 ⟨Subset.trans hbody (subset_append_left _ _), by simp⟩
  | method sig hsig =>
    refine ⟨hfields, fun m' hm' => ?_⟩
    rcases mem_append.1 hm' with hm' | hm'
    · exact hmethods m' hm'
    rw [mem_singleton.1 hm']
    exact ⟨s, hs, hcode, sig, _, _, hsig, h.annotations_subset s, .inr rfl, rfl⟩
  | field f hf =>
    refine ⟨fun f' hf' => ?_, hmethods⟩
    rcases mem_append.1 hf' with hf' | hf'
    · exact hfields f' hf'
    rw [mem_singleton.1 hf']
    exact ⟨s, hs, hcode, f, _, hf, h.annotations_subset s, rfl⟩

/-- **One statement** adds to what has been gathered only what it declares itself. -/
lemma step (hcode : s.isComment = false) : (a.step s).Gathers done name (seen ++ [s]) := by
  have hseen : seen ⊆ seen ++ [s] := subset_append_left _ _
  have hs : s ∈ seen ++ [s] := mem_append_right _ mem_cons_self
  refine ⟨Subset.trans (pending_step_subset a s) (h.annotations_subset s), fun m hm => ?_, ?_⟩
  · obtain ⟨hstack, -, hm⟩ := method_step hcode m hm
    rw [hstack, flatMap_append]
    rcases hm with ⟨before, hbefore, rfl⟩ | ⟨c, sig, hhead, -, hsig, hinfo, hbody⟩
    · obtain ⟨hbody, hinfo⟩ := h.method before hbefore
      refine ⟨?_, fun c hc => (hinfo c hc).mono hseen⟩
      exact append_subset.2 ⟨Subset.trans hbody (subset_append_left _ _), by simp⟩
    · rw [hhead, hinfo, hbody]
      refine ⟨nil_subset _, ?_⟩
      rintro _ ⟨⟩
      exact ⟨s, hs, hcode, sig, _, [], hsig, h.annotations_subset s, .inl (nil_subset _), rfl⟩
  · obtain ⟨left, hfinished, ⟨c, hc, hname⟩, hmembers⟩ := h.records
    obtain ⟨left', hfinished', hrecords⟩ := records_step (a := a) hcode
    refine ⟨left ++ left', by rw [hfinished', hfinished, append_assoc], ?_⟩
    rw [append_assoc]
    generalize left' ++ (a.step s).stack = records at hrecords
    have hold : ∀ c ∈ left ++ a.stack, MembersFrom (seen ++ [s]) c := fun c hc => (hmembers c hc).mono hseen
    cases hrecords with
    | same => exact ⟨⟨c, hc, hname⟩, hold⟩
    | declared header depth =>
      refine ⟨⟨c, ?_, hname⟩, fun c' hc' => ?_⟩
      · rcases mem_append.1 hc with hc | hc
        · exact mem_append_left _ hc
        · exact mem_append_right _ (mem_cons_of_mem _ hc)
      · rcases mem_append.1 hc' with hc' | hc'
        · exact hold c' (mem_append_left _ hc')
        rcases mem_cons.1 hc' with rfl | hc'
        · exact ⟨forall_mem_nil _, forall_mem_nil _⟩
        · exact hold c' (mem_append_right _ hc')
    | entered top top' outer hstack _ henters =>
      rw [hstack] at hc hold hmembers
      refine ⟨?_, fun c' hc' => ?_⟩
      · rcases mem_append.1 hc with hc | hc
        · exact ⟨c, mem_append_left _ hc, hname⟩
        rcases mem_cons.1 hc with rfl | hc
        · exact ⟨top', by simp, henters.name_eq.trans hname⟩
        · exact ⟨c, by simp [hc], hname⟩
      · rcases mem_append.1 hc' with hc' | hc'
        · exact hold c' (mem_append_left _ hc')
        rcases mem_cons.1 hc' with rfl | hc'
        · exact h.entersMember hcode hstack (hmembers top (by simp)) henters
        · exact hold c' (by simp [hc'])

/-- **A run** gathers what its statements declare. -/
lemma foldl (statements : List Statement) :
    (statements.foldl Analysis.step a).Gathers done name (seen ++ statements) := by
  induction statements generalizing a seen with
  | nil =>
    rw [append_nil]
    exact h
  | cons s rest ih =>
    have hstep : (a.step s).Gathers done name (seen ++ [s]) := by
      cases hcomment : s.isComment with
      | true => exact h.comment hcomment
      | false => exact h.step hcomment
    have hrest := ih hstep
    rw [append_assoc] at hrest
    exact hrest

omit h in
lemma start {header : ClassHeader} (hmethod : a.method = none) (hstack : a.stack = [])
    (hcode : s.isComment = false) (hheader : s.classHeader? = some header) :
    (a.step s).Gathers a.finished header.name [] := by
  have hempty : MembersFrom [] (openClass header s.line (a.counted s).depth) :=
    ⟨forall_mem_nil _, forall_mem_nil _⟩
  have hnone : (a.counted s).method = none := hmethod
  have hnil : (a.counted s).stack = [] := hstack
  rw [step_of_classHeader hmethod hstack hcode hheader, declareClass]
  split_ifs
  · refine ⟨nil_subset _, by simp [hnone], [], (append_nil _).symm, ⟨_, mem_cons_self, rfl⟩, ?_⟩
    simpa [hnil] using hempty
  · refine ⟨nil_subset _, by simp [hnone], _, rfl, ⟨_, mem_cons_self, rfl⟩, ?_⟩
    simpa [hnil] using hempty

end Gathers

/-- One of the records since `done` has the given name, and its members come from some
statements. -/
def HasRecord (done : List OpenClass) (name : Text) (seen : List Statement) (a : Analysis) : Prop :=
  ∃ left, a.finished = done ++ left ∧ ∃ c ∈ left ++ a.stack, c.name = name ∧ MembersFrom seen c

namespace HasRecord

variable {done : List OpenClass} {name : Text} {seen : List Statement}

lemma of_gathers (h : a.Gathers done name seen) : a.HasRecord done name seen := by
  obtain ⟨left, hfinished, ⟨c, hc, hname⟩, hmembers⟩ := h.records
  exact ⟨left, hfinished, c, hc, hname, hmembers c hc⟩

lemma step (h : a.HasRecord done name seen) (hcode : s.isComment = false)
    (hout : a.absorbs s = false) : (a.step s).HasRecord done name seen := by
  obtain ⟨left, hfinished, c, hc, hname, hmembers⟩ := h
  obtain ⟨left', hfinished', hrecords⟩ := records_step (a := a) hcode
  refine ⟨left ++ left', by rw [hfinished', hfinished, append_assoc], c, ?_, hname, hmembers⟩
  rw [append_assoc]
  generalize left' ++ (a.step s).stack = records at hrecords
  cases hrecords with
  | same => exact hc
  | declared header depth =>
    rcases mem_append.1 hc with hc | hc
    · exact mem_append_left _ hc
    · exact mem_append_right _ (mem_cons_of_mem _ hc)
  | entered top top' outer hstack habsorbs =>
    rw [hout] at habsorbs
    cases habsorbs

lemma closes {block : List Statement} {last : Option Statement}
    (h : (block.foldl Analysis.step a).HasRecord done name seen)
    (hlast : ∀ e ∈ last, e.isComment = false ∧ (block.foldl Analysis.step a).absorbs e = false) :
    ((block ++ last.toList).foldl Analysis.step a).HasRecord done name seen := by
  rw [foldl_append]
  cases last with
  | none => exact h
  | some e => exact h.step (hlast e rfl).1 (hlast e rfl).2

lemma foldl (h : a.HasRecord done name seen) {after : List Statement}
    (hend : after = [] ∨ a.stack = []) : (after.foldl Analysis.step a).HasRecord [] name seen := by
  obtain ⟨left, hfinished, c, hc, hname, hmembers⟩ := h
  refine ⟨(after.foldl Analysis.step a).finished, rfl, c, ?_, hname, hmembers⟩
  rcases hend with rfl | hnone
  · rw [foldl_nil, hfinished, append_assoc]
    exact mem_append_right _ hc
  · rw [hnone, append_nil] at hc
    refine mem_append_left _ ((finished_prefix_foldl a after).subset ?_)
    rw [hfinished]
    exact mem_append_right _ hc

lemma exists_mem_records (h : a.HasRecord [] name seen) (module : Option Text) :
    ∃ r ∈ a.records module, r.name = name ∧ (∀ f ∈ r.fields, FieldFrom seen f) ∧
      ∀ m ∈ r.methods, MethodFrom seen name m := by
  obtain ⟨left, hfinished, c, hc, rfl, hmembers⟩ := h
  rw [nil_append] at hfinished
  rw [← hfinished] at hc
  exact ⟨_, mem_map_of_mem (mem_mergeSort.2 hc), rfl, hmembers.fields, hmembers.methods⟩

end HasRecord

end Analysis

/-- **Records of top-level classes.**  In a document that closes no brace that is not open, let a
class be declared where all braces are closed.  If the statement that closed the last of them was
absorbed, the declaration adds no record.  Otherwise there is a record of its name, and unless the
statement that closes the class is absorbed, every member in it comes from a statement between the
two. -/
theorem top_level_class_recorded (d : Document) (module : Option Text) (earlier rest : List Statement)
    (s : Statement) (header : ClassHeader) (hdocument : d.statements = earlier ++ s :: rest)
    (hcovered : ∀ seen, seen <+: d.statements → 0 ≤ braceSum seen) (hcode : s.isComment = false)
    (hzero : braceSum earlier = 0) (hheader : s.classHeader? = some header) :
    let block := (blockFrom s.balance rest).1
    let last := (blockFrom s.balance rest).2
    (Analysis.Overlooks earlier →
      ((earlier ++ [s]).foldl Analysis.step {}).records module =
        (earlier.foldl Analysis.step {}).records module) ∧
    (¬Analysis.Overlooks earlier → ∃ r ∈ d.classes module, r.name = header.name ∧
      (¬Analysis.Overlooks (earlier ++ s :: block ++ last.toList) →
        (∀ f ∈ r.fields, Analysis.FieldFrom block f) ∧
          ∀ m ∈ r.methods, Analysis.MethodFrom block header.name m)) := by
  obtain ⟨after, hrest, hgoesOn, hends⟩ := blockFrom_spec s.balance rest
  generalize blockFrom s.balance rest = found at hrest hgoesOn hends ⊢
  obtain ⟨block, last⟩ := found
  dsimp only at hrest hgoesOn hends ⊢
  have hthrough : earlier ++ s :: block ++ last.toList <+: d.statements :=
    ⟨after, by rw [hdocument, hrest]; simp⟩
  have hbefore : earlier <+: d.statements := hdocument ▸ List.prefix_append _ _
  obtain ⟨hgrounded, hstack⟩ :=
    Analysis.grounded_of_covered earlier fun seen hseen => hcovered seen (hseen.trans hbefore)
  have hdepth : (earlier.foldl Analysis.step {}).depth = 0 := by
    rw [Analysis.depth_foldl, hzero]
    rfl
  refine ⟨fun hoverlooks => ?_, fun hseen => ?_⟩
  · rw [List.foldl_append]
    refine Analysis.records_step_of_left hgrounded hcode hdepth ?_ module
    exact fun hnone => (hstack hzero).1 hnone hoverlooks
  have hstart := Analysis.Gathers.start (hgrounded.method_eq_none hdepth) ((hstack hzero).2 hseen)
    hcode hheader
  have hwhole : d.statements.foldl Analysis.step {} =
      rest.foldl Analysis.step ((earlier.foldl Analysis.step {}).step s) := by
    rw [hdocument, List.foldl_append, List.foldl_cons]
  rw [Document.classes, hwhole]
  by_cases hlooks : Analysis.Overlooks (earlier ++ s :: block ++ last.toList)
  · -- The class goes on, and its record keeps the name.
    obtain ⟨r, hr, hname, -⟩ := ((Analysis.HasRecord.of_gathers (hstart.foldl rest)).foldl
      (.inl rfl)).exists_mem_records module
    exact ⟨r, hr, hname, absurd hlooks⟩
  have hsum : braceSum (earlier ++ s :: block ++ last.toList) =
      s.balance + braceSum (block ++ last.toList) := by
    rw [List.append_assoc, braceSum_append, hzero, List.cons_append, braceSum_cons, Statement.change,
      if_neg (by simp [hcode]), Int.zero_add]
  have hblock := (Analysis.HasRecord.of_gathers (hstart.foldl block)).closes fun e he => by
    refine ⟨(hends e he).1, ?_⟩
    by_contra habsorbs
    obtain rfl : last = some e := he
    refine hlooks ⟨hsum.trans (hends e rfl).2, ?_⟩
    rw [Option.toList_some, Analysis.absorbsLast_concat _ _ _ (hends e rfl).1, List.foldl_append]
    simpa using habsorbs
  have hend : after = [] ∨ ((block ++ last.toList).foldl Analysis.step
      ((earlier.foldl Analysis.step {}).step s)).stack = [] := by
    by_cases hback : s.balance + braceSum (block ++ last.toList) = 0
    · -- The braces are closed, and nothing was overlooked, so no class is open.
      have hnone := ((Analysis.grounded_of_covered _ fun seen hseen =>
        hcovered seen (hseen.trans hthrough)).2 (hsum.trans hback)).2 hlooks
      rw [List.append_assoc, List.foldl_append, List.cons_append, List.foldl_cons] at hnone
      exact .inr hnone
    · refine .inl ?_
      cases last with
      | none =>
        refine (hgoesOn rfl).resolve_right ?_
        rintro ⟨hflat, rfl⟩
        exact hback (by rw [hflat]; rfl)
      | some e => exact absurd (hends e rfl).2 hback
  obtain ⟨r, hr, hname, hmembers⟩ := (hblock.foldl hend).exists_mem_records module
  rw [← List.foldl_append, ← hrest] at hr
  exact ⟨r, hr, hname, fun _ => hmembers⟩

/-- Two classes with a comment between: the second gets its record, with its own field. -/
theorem top_level_class_recorded_second :
    let d : Document := ⟨["class A \x7b", "@FindBy(id = \"x\")", "WebElement x;", "void m() \x7b",
      "\x7d", "\x7d", "// Another one.", "class B \x7b", "int y;", "\x7d"]⟩
    let earlier := d.statements.take 7
    ∃ s rest header, d.statements = earlier ++ s :: rest ∧
      (∀ seen, seen <+: d.statements → 0 ≤ braceSum seen) ∧ s.isComment = false ∧
      braceSum earlier = 0 ∧ s.classHeader? = some header ∧ header.name = "B".toList ∧
      ¬Analysis.Overlooks earlier ∧
      ¬Analysis.Overlooks (earlier ++ s :: rest.take 1 ++ (rest.drop 1).take 1) ∧
      ∃ r ∈ d.classes none, r.name = "B".toList ∧
        (∀ f ∈ r.fields, Analysis.FieldFrom (rest.take 1) f) ∧
        ∀ m ∈ r.methods, Analysis.MethodFrom (rest.take 1) header.name m := by
  intro d earlier
  obtain ⟨s, hs⟩ : ∃ s, s = d.statements.get ⟨7, by decide +kernel⟩ := ⟨_, rfl⟩
  have hcovered : ∀ seen ∈ d.statements.inits, 0 ≤ braceSum seen := by decide +kernel
  obtain ⟨hdocument, ⟨hcode, hzero, hbefore⟩, ⟨hblock, hlast, hlooks⟩, header, hheader, hname⟩ :
      d.statements = earlier ++ s :: d.statements.drop 8 ∧
      (s.isComment = false ∧ braceSum earlier = 0 ∧ ¬Analysis.Overlooks earlier) ∧
      ((blockFrom s.balance (d.statements.drop 8)).1 = (d.statements.drop 8).take 1 ∧
        (blockFrom s.balance (d.statements.drop 8)).2.toList =
          ((d.statements.drop 8).drop 1).take 1 ∧
        ¬Analysis.Overlooks (earlier ++ s :: (d.statements.drop 8).take 1 ++
          ((d.statements.drop 8).drop 1).take 1)) ∧
      ∃ header ∈ s.classHeader?, header.name = "B".toList := by
    rw [hs]
    decide +kernel
  have hcovered' : ∀ seen, seen <+: d.statements → 0 ≤ braceSum seen :=
    fun seen hseen => hcovered seen ((List.mem_inits _ _).2 hseen)
  have hrecorded := (top_level_class_recorded d none earlier _ s header hdocument hcovered' hcode hzero
    hheader).2 hbefore
  rw [hblock, hlast, hname] at hrecorded
  obtain ⟨r, hr, hrname, hmembers⟩ := hrecorded
  exact ⟨s, _, header, hdocument, hcovered', hcode, hzero, hheader, hname, hbefore, hlooks, r, hr,
    hrname, hname ▸ hmembers hlooks⟩

/-- One statement ends a method and its class: the class after it is overlooked, and the field of
that class is entered into the record of the first. -/
theorem class_overlooked :
    let d : Document :=
      ⟨["class A \x7b", "void m() \x7b", "\x7d \x7d", "class B \x7b", "int x;", "\x7d"]⟩
    ∃ s header r f, d.statements.take 4 = d.statements.take 3 ++ [s] ∧
      (∀ seen, seen <+: d.statements → 0 ≤ braceSum seen) ∧ s.isComment = false ∧
      braceSum (d.statements.take 3) = 0 ∧ s.classHeader? = some header ∧ header.name = "B".toList ∧
      d.classes none = [r] ∧ r.name = "A".toList ∧ r.fields = [f] ∧ f.name = "x".toList ∧
      (blockFrom 1 (d.statements.drop 1)).1 = (d.statements.drop 1).take 1 ∧
      ¬Analysis.FieldFrom ((d.statements.drop 1).take 1) f := by
  intro d
  obtain ⟨s, hs⟩ : ∃ s, s = d.statements.get ⟨3, by decide +kernel⟩ := ⟨_, rfl⟩
  have hcovered : ∀ seen ∈ d.statements.inits, 0 ≤ braceSum seen := by decide +kernel
  obtain ⟨htake, hcode, hzero, ⟨header, hheader, hname⟩, hblock, hnofield⟩ :
      d.statements.take 4 = d.statements.take 3 ++ [s] ∧ s.isComment = false ∧
      braceSum (d.statements.take 3) = 0 ∧ (∃ header ∈ s.classHeader?, header.name = "B".toList) ∧
      (blockFrom 1 (d.statements.drop 1)).1 = (d.statements.drop 1).take 1 ∧
      ∀ m ∈ (d.statements.drop 1).take 1, field? (splitAnnotations m.text).2 = none := by
    rw [hs]
    decide +kernel
  have hrecords : (d.classes none).map (fun r => (r.name, r.fields.map (·.name))) =
      [("A".toList, ["x".toList])] := by
    decide +kernel
  obtain ⟨r, hclasses, hr⟩ := List.map_eq_singleton_iff.1 hrecords
  obtain ⟨hrname, hfields⟩ := Prod.mk.inj hr
  obtain ⟨f, hf, hfname⟩ := List.map_eq_singleton_iff.1 hfields
  refine ⟨s, header, r, f, htake, fun seen hseen => hcovered seen ((List.mem_inits _ _).2 hseen), hcode,
    hzero, hheader, hname, hclasses, hrname, hf, hfname, hblock, ?_⟩
  rintro ⟨m, hm, -, field, -, hfield, -⟩
  cases (hnofield m hm).symm.trans hfield

end Restage
