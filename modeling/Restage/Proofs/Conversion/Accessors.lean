import Restage.Proofs.Conversion.Diagnostics
import Restage.Proofs.Conversion.Recording
import Restage.Settings.Basic

/-!
# References to accessors

Inside a class of the output an element is referred to by `(await this.x())`.  The names that are
referred to in this way are the element fields of the class and of all its ancestors in the source,
while the class inherits accessors only along the `extends` clauses that are written, and a clause
is left out if the parent is no page.  So a reference is closed by an accessor of the class itself
or of a class that the clauses lead to, or else the clauses break off below a class that has the
field (`accessor_reference_closed`).  The latter does happen (`accessor_reference_open`).
-/

namespace Restage.Conversion

open Text Java TypeScript List Context

/-! ## The clauses that are written -/

namespace Lookup

variable (l : Lookup)

/-- The class that is written after `extends` in the header of a class. -/
def extended? (c : ClassInfo) : Option ClassInfo :=
  match Style.ofRoles (l.roles c) with
  | .exception => (l.parent? c).filter fun p => (l.roles p).isException
  | .steps => none
  | .page => (l.parent? c).filter fun p => l.isPageType p.name

/-- The clause in the header of a class around a page. -/
def extendsClause (c : ClassInfo) : Text :=
  match l.extended? c with
  | some p => " extends " ++ p.name
  | none => []

/-- A class extends another in the source. -/
def Descends (c parent : ClassInfo) : Prop := l.parent? c = some parent

/-- A class extends another in the output. -/
def Extends (c parent : ClassInfo) : Prop := l.extended? c = some parent

variable {l}

lemma extended?_of_parent? {c parent : ClassInfo} (h : l.parent? c = some parent) :
    l.extended? c = some parent ∨ l.extended? c = none := by
  have hfilter : ∀ p : ClassInfo → Bool, (some parent).filter p = some parent ∨
      (some parent).filter p = none := by
    intro p
    rw [Option.filter_some]
    split_ifs
    · exact .inl rfl
    · exact .inr rfl
  rw [extended?, h]
  split
  · exact hfilter _
  · exact .inr rfl
  · exact hfilter _

lemma descends_of_mem_ancestors {c a : ClassInfo} (h : a ∈ l.ancestors c) :
    Relation.TransGen l.Descends c a := by
  have hfrom : ∀ seen c, a ∈ l.ancestorsFrom seen c → Relation.TransGen l.Descends c a := by
    intro seen c h
    fun_induction ancestorsFrom l seen c with
    | case1 => cases h
    | case2 => cases h
    | case3 seen c parent hparent hseen _ ih =>
      rcases mem_cons.1 h with rfl | h
      · exact .single hparent
      · exact .head hparent (ih h)
  exact hfrom _ c h

/-- The clauses lead from a class to one whose parent is left out of its header, and that parent is
the class given or descends from it. -/
def Breaks (l : Lookup) (c a : ClassInfo) : Prop :=
  ∃ b parent, Relation.ReflTransGen l.Extends c b ∧ l.Descends b parent ∧ l.extended? b = none ∧
    Relation.ReflTransGen l.Descends parent a

lemma extends_or_breaks {c a : ClassInfo} (h : Relation.TransGen l.Descends c a) :
    Relation.TransGen l.Extends c a ∨ l.Breaks c a := by
  induction h using Relation.TransGen.head_induction_on with
  | @single c hparent =>
    rcases extended?_of_parent? hparent with hwritten | hnone
    · exact .inl (.single hwritten)
    · exact .inr ⟨c, a, .refl, hparent, hnone, .refl⟩
  | @head c parent hparent habove ih =>
    rcases extended?_of_parent? hparent with hwritten | hnone
    · rcases ih with hall | ⟨b, next, hreached, hbreaks⟩
      · exact .inl (.head hwritten hall)
      · exact .inr ⟨b, next, .head hwritten hreached, hbreaks⟩
    · exact .inr ⟨c, parent, .refl, hparent, hnone, habove.to_reflTransGen⟩

end Lookup

variable {l : Lookup} {info : ClassInfo} {style : Style} {sig : Signature} {ctx : Context}

lemma head?_pageCalls (hpage : Style.ofRoles (l.roles info) = .page) :
    (pageCalls l info).head? =
      some (.openScope ("export class " ++ info.name ++ l.extendsClause info ++ " \x7b") "\x7d") := by
  have hextended : l.extended? info = (l.parent? info).filter fun p => l.isPageType p.name := by
    rw [Lookup.extended?, hpage]
  rw [pageCalls, Lookup.extendsClause, hextended]
  cases (l.parent? info).filter fun p => l.isPageType p.name with
  | some parent => rfl
  | none => rfl

/-! ## What a context knows of its class -/

/-- A context belongs to a class: its accessors are the element fields of the class and its
ancestors, and if the object can be referred to in a method, the class is one around a page. -/
structure Context.Belongs (l : Lookup) (info : ClassInfo) (style : Style) (ctx : Context) : Prop where
  accessors : ctx.accessors = l.elementFields info ++ (l.ancestors info).flatMap l.elementFields
  self : ctx.inMethod = true → ∀ self ∈ ctx.selfRef, style = .page ∧ self = "this".toList

namespace Context.Belongs

variable {l : Lookup} {info : ClassInfo} {style : Style} {ctx after : Context}

lemma of_setting (h : ctx.Belongs l info style) (hsetting : after.setting = ctx.setting) :
    after.Belongs l info style := by
  have haccessors : after.setting.accessors = ctx.setting.accessors := by rw [hsetting]
  have hself : after.setting.selfRef = ctx.setting.selfRef := by rw [hsetting]
  refine ⟨Eq.trans haccessors h.accessors, fun hmethod self hmem => ?_⟩
  rw [inMethod_of_setting hsetting] at hmethod
  exact h.self hmethod self (hself ▸ hmem)

lemma classContext (hmethod : ctx.inMethod = false) :
    (Conversion.classContext l info style ctx).Belongs l info style := by
  refine ⟨rfl, fun hin => ?_⟩
  have hsame : (Conversion.classContext l info style ctx).inMethod = ctx.inMethod := rfl
  rw [hsame, hmethod] at hin
  cases hin

lemma leaveMethod (h : ctx.Belongs l info style) : ctx.leaveMethod.2.Belongs l info style :=
  ⟨h.accessors, by rintro ⟨⟩⟩

end Context.Belongs

lemma selfRef_methodHeader {step : Option Step} {self : Text}
    (h : (methodHeader l style sig step ctx).1.selfRef = some self) :
    style ≠ .steps ∧ self = "this".toList := by
  unfold methodHeader at h
  dsimp only at h
  split at h
  · cases h
  · generalize typeReference l (sig.result.getD []) ctx = reference at h
    split_ifs at h with hsteps hstatic
    · cases h
    · cases h
    · cases h
      exact ⟨hsteps, rfl⟩

namespace Walk

variable {around : Surroundings} {w w' : Walk} {s : Statement} {l : Lookup} {info : ClassInfo}
  {style : Style}

lemma setting_startMethod (w : Walk) (l : Lookup) (info : ClassInfo) (style : Style) (sig : Signature)
    (annotations : List Text) :
    let header := methodHeader l style sig (stepAnnotation? annotations) w.context
    (w.startMethod l info style sig annotations).context.setting =
      (header.2.enterMethod ((parameters sig.params).map (·.name)) header.1.pageRef
        header.1.selfRef).setting :=
  w.startMethod_kept l (π := (·.context.setting)) (fun w f => w.context.setting_importClass f.elementType) ..

lemma belongs_startMethod (h : w.context.Belongs l info style) (hstyle : style ≠ .exception)
    (sig : Signature) (annotations : List Text) :
    (w.startMethod l info style sig annotations).context.Belongs l info style := by
  have hsetting := w.setting_startMethod l info style sig annotations
  refine Belongs.of_setting ?_ hsetting
  have hstanding := methodHeader_standing l style sig (stepAnnotation? annotations) w.context
  have hsame := h.of_setting (setting_of_standing hstanding)
  refine ⟨hsame.accessors, fun _ self hself => ?_⟩
  obtain ⟨hsteps, hthis⟩ := selfRef_methodHeader (Option.filter_eq_some_iff.1 hself).1
  exact ⟨by cases style <;> simp_all, hthis⟩

lemma setting_bodyStatement {inBlock : Bool} (h : w.bodyStatement s inBlock = .ok w') :
    w'.context.setting = w.context.setting := by
  rcases context_bodyStatement h with hw | ⟨_, _, hheader⟩ | ⟨_, hw⟩ | ⟨_, _, hstatement⟩
  · rw [hw]
  · exact controlHeader?_setting hheader
  · rw [hw]
    rfl
  · exact statement_setting hstatement

lemma belongs_unwindFrames (h : w.context.Belongs l info style) (recognizer : Option Recognizer)
    (frames : List Frame) : (unwindFrames recognizer w frames).context.Belongs l info style := by
  rcases w.unwindFrames_context recognizer frames with hw | hw
  · rw [hw]
    exact h
  · rw [hw]
    exact h.leaveMethod

lemma belongs_method {annotations : List Text} {opened : Bool}
    (h : w.context.Belongs around.lookup info style) (hstyle : style ≠ .exception)
    (hmethod : w.method around s info style sig annotations opened = .ok w') :
    w'.context.Belongs around.lookup info style := by
  have hblank : (w.onSheet (·.blank)).context.Belongs around.lookup info style := h
  have hstarted := belongs_startMethod hblank hstyle sig annotations
  rcases method_cases hmethod with ⟨-, rfl | rfl⟩ | ⟨-, rfl, rfl⟩ | ⟨-, rfl, after, hafter, rfl⟩
  · exact h.of_setting (congrArg setting (w.context_skip s _ opened) :)
  · exact h.of_setting rfl
  · exact hstarted
  · have hinline : after.context.Belongs around.lookup info style := by
      split_ifs at hafter
      · cases hafter
        exact hstarted
      · obtain ⟨_, hstatement, hafter⟩ := exists_of_bind_eq_ok hafter
        cases hafter
        exact hstarted.of_setting (statement_setting hstatement)
    rw [context_finishMethod]
    exact hinline.leaveMethod

lemma belongs_member {bodyDepth : Nat} (h : w.context.Belongs around.lookup info style)
    (hmember : w.member around s info style bodyDepth = .ok w') :
    w'.context.Belongs around.lookup info style := by
  have hcleared : ({ w with pending := [] } : Walk).context.Belongs around.lookup info style := h
  rw [member_eq] at hmember
  cases memberPlace s info style with
  | waiting hcase =>
    rw [hcase] at hmember
    cases hmember
    exact h
  | skipped reason _ hcase =>
    rw [hcase] at hmember
    cases hmember
    exact hcleared.of_setting (congrArg setting (context_skip ..) :)
  | method sig hstyle _ hcase =>
    rw [hcase] at hmember
    exact belongs_method hcleared hstyle hmember
  | field f _ hcase =>
    rw [hcase] at hmember
    cases hmember
    rcases context_field _ around.lookup s style f _ with hw | ⟨_, hw⟩
    all_goals exact hcleared.of_setting (congrArg setting hw :)

/-- The context belongs to the class that is the outermost construct. -/
def Knows (l : Lookup) (w : Walk) : Prop :=
  ∀ info style depth, w.frames.getLast? = some ⟨.classBody info style, depth⟩ →
    w.context.Belongs l info style

/-- **One statement** leaves the context with the class that is outermost. -/
lemma Knows.step (h : w.Knows around.lookup) (hn : w.Nests) (hstep : w.step around s = .ok w') :
    w'.Knows around.lookup := by
  intro info style depth hlast'
  by_cases hcomment : s.isComment = true
  · obtain ⟨hframes, -, -, hcontext⟩ := step_comment hcomment hstep
    rw [hframes] at hlast'
    rw [hcontext]
    exact h info style depth hlast'
  have hcode : s.isComment = false := by simpa using hcomment
  rcases hn.outermost_before hstep hlast' with hlast | hnone
  · have hbelongs := h info style depth hlast
    obtain ⟨inside, hinside, rfl⟩ := step_code hcode hstep
    refine belongs_unwindFrames ?_ around.recognizer inside.frames
    rw [← w.context_count s] at hbelongs
    rcases within_cases hinside with rfl | ⟨hnone, -⟩ | ⟨-, rfl⟩ | ⟨_, _, _, -, -, hbody⟩ |
      ⟨i, st, hframe, hmember⟩
    · exact hbelongs
    · rw [head?_eq_none_iff.1 hnone] at hlast
      cases hlast
    · exact hbelongs.of_setting rfl
    · exact hbelongs.of_setting (setting_bodyStatement hbody)
    · rw [hn.classBody_alone hframe] at hlast
      cases hlast
      exact belongs_member hbelongs hmember
  · obtain ⟨-, hframe, -⟩ := hn.outermost_opened hstep hnone hlast'
    obtain ⟨header, hopens⟩ := exists_opensClass hnone hcode hstep hframe
    refine Belongs.of_setting (.classContext ?_) hopens.setting
    have hmethod : Kind.method ∉ kindsOf w.frames := by
      rw [hnone]
      exact not_mem_nil
    rw [← hn.inMethod] at hmethod
    simpa using hmethod

lemma Knows.foldlM {statements : List Statement} (h : w.Knows around.lookup) (hn : w.Nests)
    (hwalk : statements.foldlM (Walk.step around) w = .ok w') : w'.Knows around.lookup :=
  (foldlM_invariant (P := fun w => w.Knows around.lookup ∧ w.Nests)
    (fun h hnext => ⟨h.1.step h.2 hnext, h.2.step hnext⟩) hwalk ⟨h, hn⟩).1

end Walk

lemma Task.start_knows (t : Task) : t.start.Knows t.surroundings.lookup := by
  rintro _ _ _ ⟨⟩

/-! ## Where references are written -/

/-- A context in which the statement that comes next is converted: that of the method whose body the
walk is in, or that of a method whose body stands on one line with its header. -/
inductive Walk.ConvertsIn (l : Lookup) (w : Walk) (ctx : Context) : Prop
  | body (frame : Frame) : frame ∈ w.frames.head? →
      frame.construct.kind = .method ∨ frame.construct.kind = .block →
      ctx.setting = w.context.setting → ConvertsIn l w ctx
  | inline (info : ClassInfo) (style : Style) (depth : Nat) (before : Walk) (sig : Signature)
      (annotations : List Text) : w.frames.head? = some ⟨.classBody info style, depth⟩ →
      style ≠ .exception → before.context = w.context →
      ctx.setting = (before.startMethod l info style sig annotations).context.setting →
      ConvertsIn l w ctx

lemma Walk.ConvertsIn.belongs {w : Walk} (h : w.ConvertsIn l ctx) (hn : w.Nests) (hknows : w.Knows l)
    {depth : Nat} (hclass : w.frames.getLast? = some ⟨.classBody info style, depth⟩) :
    ctx.Belongs l info style ∧ ctx.inMethod = true := by
  have hbelongs := hknows info style depth hclass
  cases h with
  | body frame hhead hkind hsetting =>
    refine ⟨hbelongs.of_setting hsetting, ?_⟩
    rw [inMethod_of_setting hsetting, hn.inMethod]
    -- A block is in a method.
    have hstack := hn.stack
    cases hframes : w.frames with
    | nil =>
      rw [hframes] at hhead
      cases hhead
    | cons f outer =>
      rw [hframes] at hhead hstack
      obtain rfl : f = frame := Option.some.inj hhead
      have hkinds : kindsOf (f :: outer) = f.construct.kind :: kindsOf outer := rfl
      rw [hkinds] at hstack ⊢
      rcases hkind with hkind | hkind
      · rw [hkind]
        exact mem_cons_self
      · rw [hkind] at hstack
        obtain ⟨n, hbody⟩ := hstack.body_of_block.reverse_eq
        refine mem_cons_of_mem _ (mem_reverse.1 ?_)
        rw [hbody]
        simp
  | inline info' style' depth' before sig annotations hhead hstyle hcontext hsetting =>
    rw [hn.classBody_alone hhead] at hclass
    cases hclass
    have hstarted : (before.startMethod l info style sig annotations).context.Belongs l info style :=
      belongs_startMethod (hcontext ▸ hbelongs) hstyle sig annotations
    refine ⟨hstarted.of_setting hsetting, ?_⟩
    rw [inMethod_of_setting hsetting]
    exact (before.startMethod_spec l info style sig annotations).2.2.1

lemma oneLine_of_accessorName? {t x : Text} (h : accessorName? t = some x) : OneLine x := by
  have hname : isName x = true := by
    rw [accessorName?] at h
    split_ifs at h with hbare htext
    · cases h
      exact hbare
    · cases h
      exact htext
  have hword : ∀ c, isLineEnd c = true → isWord c = false ∧ isNameStart c = false := by
    have hends : ∀ n ∈ lineEnds, isWord (Char.ofNat n) = false ∧ isNameStart (Char.ofNat n) = false := by
      decide +kernel
    intro c hc
    have := hends c.toNat (by simpa [isLineEnd] using hc)
    rwa [Char.ofNat_toNat] at this
  intro c hc
  by_contra hend
  obtain ⟨hnot, hnever⟩ := hword c (by simpa using hend)
  cases x with
  | nil => cases hc
  | cons d r =>
    obtain ⟨hstart, hrest⟩ := Bool.and_eq_true_iff.1 hname
    rcases mem_cons.1 hc with rfl | hc
    · rw [hnever] at hstart
      cases hstart
    · rw [List.all_eq_true.1 hrest c hc] at hnot
      cases hnot

lemma mem_lines_of_openScope {sheet : Sheet} {calls : List Call} {line closer : Text}
    (h : .openScope line closer ∈ calls) (hline : OneLine line)
    (hstart : ∃ c r, line = c :: r ∧ isBlank c = false) :
    line ∈ (lines (sheet.performAll calls).render).map trimLeft := by
  have hkept : line ∈ (sheet.performAll calls).bodyTexts := sheet.mem_bodyTexts_performAll h mem_cons_self
  have hshown := Sheet.sublist_lines_render (singleton_sublist.2 hkept)
    (by simpa using hline) (by simpa using hstart)
  exact singleton_sublist.1 hshown

/-- A reference to an accessor in the part of a class is closed: the class has the accessor, or the
clauses lead to a class that has the field. -/
inductive Closes {t : Task} (o : Output) (p : ClassPart t) (x : Text) : Prop
  | own : accessorHeader x ∈ p.calls → accessorLine x ∈ (lines o.code).map trimLeft → Closes o p x
  | inherited (c : ClassInfo) : Relation.TransGen t.surroundings.lookup.Extends p.info c →
      x ∈ t.surroundings.lookup.elementFields c → Closes o p x

lemma ClassPart.head?_calls {t : Task} (p : ClassPart t) (htidy : TidyFrom 0 t.document.statements)
    (hpage : p.style = .page) :
    p.calls.head? = some (.openScope ("export class " ++ p.info.name ++
      t.surroundings.lookup.extendsClause p.info ++ " \x7b") "\x7d") := by
  obtain ⟨header, hopens⟩ := p.exists_opensClass
  obtain ⟨-, ht, -⟩ := p.follows htidy
  have hcovered := ht.covered
  have hstyle := hopens.style_eq
  have hcalls := hopens.calls
  rw [hpage] at hstyle hcalls
  rw [countCalls, if_neg (by omega), nil_append] at hcalls
  have hhead := head?_pageCalls hstyle.symm
  rw [p.calls_eq, hcalls, head?_append, styleCalls, hhead]
  rfl

/-- **References to accessors.**  Let the braces of a file be laid out as usual and no class name be
given twice.  Whenever the walk is in a class and an expression that names a field becomes an
element reference, it becomes `(await this.x())` in a class around a page.  That class is a part of
the output that starts with its header, and the reference is closed, or else the `extends` clauses
break off below a class that has the field. -/
theorem accessor_reference_closed (t : Task) (o : Output) (seen after : List Statement)
    (s : Statement) (w : Walk) (info : ClassInfo) (style : Style) (depth : Nat) (ctx : Context)
    (expression reference x : Text) (hrun : t.run = .ok o)
    (htidy : TidyFrom 0 t.document.statements) (hnames : (t.classes.map (·.name)).Nodup)
    (hdocument : t.document.statements = seen ++ s :: after)
    (hwalk : seen.foldlM (Walk.step t.surroundings) t.start = .ok w)
    (hclass : w.frames.getLast? = some ⟨.classBody info style, depth⟩)
    (hctx : w.ConvertsIn t.surroundings.lookup ctx)
    (hx : accessorName? (trim expression) = some x)
    (hreference : element? ctx expression = some reference) :
    reference = "(await this." ++ x ++ "())" ∧ ∃ p : ClassPart t, p.info = info ∧ p.style = .page ∧
      p.Holds seen s ∧ p.calls <:+: t.calls ∧
      p.calls.head? = some (.openScope ("export class " ++ info.name ++
        t.surroundings.lookup.extendsClause info ++ " \x7b") "\x7d") ∧
      (Closes o p x ∨ ∃ c, t.surroundings.lookup.Breaks info c ∧
        x ∈ t.surroundings.lookup.elementFields c) := by
  have hn : w.Nests := t.start_nests.foldlM hwalk
  have hknows := t.start_knows.foldlM t.start_nests hwalk
  obtain ⟨hbelongs, hmethod⟩ := hctx.belongs hn hknows hclass
  obtain ⟨p, rfl, rfl, hholds⟩ := exists_classPart hdocument hwalk hclass
  rw [element?, hx] at hreference
  dsimp only at hreference
  rw [accessorCall?] at hreference
  split_ifs at hreference with hknown
  obtain ⟨self, hself, rfl⟩ := Option.map_eq_some_iff.1 hreference
  obtain ⟨hpage, rfl⟩ := hbelongs.self hmethod self hself
  refine ⟨rfl, p, rfl, hpage, hholds, p.calls_infix, p.head?_calls htidy hpage, ?_⟩
  obtain ⟨final, hfinal, -⟩ := exists_of_bind_eq_ok hrun
  have hmem : x ∈ t.surroundings.lookup.elementFields p.info ++
      (t.surroundings.lookup.ancestors p.info).flatMap t.surroundings.lookup.elementFields := by
    rw [← hbelongs.accessors]
    simpa using hknown
  rcases List.mem_append.1 hmem with hown | habove
  · -- The field is recorded for the class, and its accessor is written.
    have haccessor := p.accessorHeader_mem hfinal htidy hnames hpage x hown
    refine .inl (.own haccessor ?_)
    rw [Task.run_code hrun]
    refine mem_lines_of_openScope (p.calls_infix.subset haccessor) ?_ ⟨'a', _, rfl, by decide⟩
    have hstart : OneLine "async ".toList := by simp [OneLine, isLineEnd, lineEnds]
    have hend : OneLine "(): Promise<Locator> \x7b".toList := by simp [OneLine, isLineEnd, lineEnds]
    exact (hstart.append (oneLine_of_accessorName? hx)).append hend
  · obtain ⟨c, hc, hfield⟩ := List.mem_flatMap.1 habove
    rcases Lookup.extends_or_breaks (Lookup.descends_of_mem_ancestors hc) with hreached | hbreaks
    · exact .inl (.inherited c hreached hfield)
    · exact .inr ⟨c, hbreaks, hfield⟩

/-- A page that extends another.  A field of its own and one that it inherits can be referred to in
a block, and neither reference is left open. -/
theorem accessor_reference_closed_inherited :
    let t : Task :=
      { document := ⟨["class BasePage \x7b", "@FindBy(id = \"a\") WebElement a;", "\x7d",
          "class LoginPage extends BasePage \x7b", "@FindBy(id = \"b\")", "WebElement b;",
          "void m() \x7b", "if (q) \x7b", "a.click();", "\x7d", "\x7d", "\x7d"]⟩ }
    let seen := t.document.statements.take 8
    ∃ (o : Output) (w : Walk) (info : ClassInfo) (s : Statement) (after : List Statement),
      t.run = .ok o ∧ TidyFrom 0 t.document.statements ∧ (t.classes.map (·.name)).Nodup ∧
      t.document.statements = seen ++ s :: after ∧
      seen.foldlM (Walk.step t.surroundings) t.start = .ok w ∧
      w.frames.getLast? = some ⟨.classBody info .page, 1⟩ ∧
      w.ConvertsIn t.surroundings.lookup w.context ∧
      ∀ x ∈ (["a", "b"] : List Text), accessorName? (trim x) = some x ∧
        element? w.context x = some ("(await this." ++ x ++ "())") ∧
        ∃ p : ClassPart t, p.info = info ∧ p.Holds seen s ∧
          p.calls.head? = some (.openScope "export class LoginPage extends BasePage \x7b" "\x7d") ∧
          Closes o p x := by
  intro t seen
  have hs := t.surroundings_of_sorted (by decide +kernel)
  have htidy : TidyFrom 0 t.document.statements := by decide +kernel
  obtain ⟨info, hinfo⟩ : ∃ info,
      info = (t.surroundings.lookup.own? "LoginPage").getD { name := [] } := ⟨_, rfl⟩
  obtain ⟨base, hbase⟩ : ∃ base,
      base = (t.surroundings.lookup.own? "BasePage").getD { name := [] } := ⟨_, rfl⟩
  obtain ⟨w, hw, ⟨hnames, hrest, hheader, hextended⟩, ⟨hclass, hblock, hreferences⟩, hfinal⟩ : ∃ w,
      seen.foldlM (Walk.step t.surroundings) t.start = .ok w ∧
      (((t.surroundings.lookup.classes.map (·.name)).Nodup ∧ t.document.statements.drop 8 ≠ [] ∧
        ("export class " ++ info.name ++ t.surroundings.lookup.extendsClause info ++ " \x7b" : Text) =
          "export class LoginPage extends BasePage \x7b".toList ∧
        t.surroundings.lookup.extended? info = some base ∧
        t.surroundings.lookup.extended? base = none ∧ t.surroundings.lookup.parent? base = none) ∧
      (w.frames.getLast? = some ⟨.classBody info .page, 1⟩ ∧ w.frames.head? = some ⟨.block, 3⟩ ∧
        ∀ x ∈ (["a", "b"] : List Text), accessorName? (trim x) = some x ∧
          element? w.context x = some ("(await this." ++ x ++ "())")) ∧
      ((t.document.statements.drop 8).foldlM (Walk.step t.surroundings) w).toOption.isSome = true) := by
    rw [hinfo, hbase, hs]
    exact exists_of_any_toOption (by decide +kernel)
  obtain ⟨final, hfinal⟩ : ∃ final,
      (t.document.statements.drop 8).foldlM (Walk.step t.surroundings) w = .ok final := by
    cases hok : (t.document.statements.drop 8).foldlM (Walk.step t.surroundings) w with
    | ok final => exact ⟨final, rfl⟩
    | error fault =>
      rw [hok] at hfinal
      cases hfinal
  have hwalk : t.walk = .ok final := by
    rw [Task.walk, ← List.take_append_drop 8 t.document.statements]
    exact foldlM_append_eq_ok.2 ⟨w, hw, hfinal⟩
  obtain ⟨o, ho⟩ : ∃ o, t.run = .ok o := by
    rw [Task.run, hwalk]
    exact ⟨_, rfl⟩
  obtain ⟨s, after, hafter⟩ := List.exists_cons_of_ne_nil hrest
  have hdocument : t.document.statements = seen ++ s :: after := by
    rw [← hafter]
    exact (List.take_append_drop 8 t.document.statements).symm
  have hctx : w.ConvertsIn t.surroundings.lookup w.context := .body ⟨.block, 3⟩ hblock (.inr rfl) rfl
  -- The clause of the one class is written, and the other has no parent.
  have hwhole : ∀ c, ¬t.surroundings.lookup.Breaks info c := by
    rintro c ⟨b, parent, hreached, hparent, hnone, -⟩
    rcases hreached.cases_head with rfl | ⟨next, hnext, hreached⟩
    · rw [hextended.1] at hnone
      cases hnone
    obtain rfl : base = next := Option.some.inj (hextended.1.symm.trans hnext)
    rcases hreached.cases_head with rfl | ⟨next, hnext, -⟩
    · cases hextended.2.2.symm.trans hparent
    · cases hextended.2.1.symm.trans hnext
  refine ⟨o, w, info, s, after, ho, htidy, hnames, hdocument, hw, hclass, hctx, fun x hx => ?_⟩
  obtain ⟨hname, hreference⟩ := hreferences x hx
  obtain ⟨-, p, hp, -, hholds, -, hhead, hcloses⟩ := accessor_reference_closed t o seen after s w info
    .page 1 w.context x _ x ho htidy hnames hdocument hw hclass hctx hname hreference
  refine ⟨hname, hreference, p, hp, hholds, hhead.trans (by rw [hheader]), ?_⟩
  refine hcloses.resolve_right ?_
  rintro ⟨c, hbreaks, -⟩
  exact hwhole c hbreaks

/-- A class whose parent has the element, but is not named for a page: the clause is left out, and
the reference is written all the same. -/
theorem accessor_reference_open :
    let t : Task :=
      { document := ⟨["class Base \x7b", "@FindBy(id = \"x\")", "WebElement x;", "\x7d",
          "class C extends Base \x7b", "void m() \x7b", "x.click();", "\x7d", "\x7d"]⟩
        baseImports := ({} : Settings).baseImports }
    let seen := t.document.statements.take 6
    ∃ (o : Output) (w : Walk) (p : ClassPart t) (s : Statement),
      t.run = .ok o ∧ TidyFrom 0 t.document.statements ∧ (t.classes.map (·.name)).Nodup ∧
      seen.foldlM (Walk.step t.surroundings) t.start = .ok w ∧
      w.ConvertsIn t.surroundings.lookup w.context ∧
      element? w.context "x" = some ("(await this.x())" : Text) ∧
      ("await (await this.x()).click();" : Text) ∈ (lines o.code).map trimLeft ∧
      p.Holds seen s ∧
      p.calls.head? = some (.openScope "export class C \x7b" "\x7d") ∧
      ¬Closes o p "x" := by
  intro t seen
  have hs := t.surroundings_of_sorted (by decide +kernel)
  have htidy : TidyFrom 0 t.document.statements := by decide +kernel
  obtain ⟨info, hinfo⟩ : ∃ info, info = (t.surroundings.lookup.own? "C").getD { name := [] } :=
    ⟨_, rfl⟩
  -- The class is opened by the fifth statement, and the method in it by the sixth.
  obtain ⟨opening, hopening⟩ : ∃ opening,
      opening = t.document.statements.get ⟨4, by decide +kernel⟩ := ⟨_, rfl⟩
  obtain ⟨header, hheader⟩ : ∃ header,
      header = t.document.statements.get ⟨5, by decide +kernel⟩ := ⟨_, rfl⟩
  have hdocument : t.document.statements =
      t.document.statements.take 4 ++ opening :: header :: t.document.statements.drop 6 ∧
      seen = t.document.statements.take 4 ++ [opening, header] ∧
      t.document.statements.drop 6 ≠ [] := by
    rw [hopening, hheader]
    decide +kernel
  obtain ⟨outside, houtside, ⟨hnames, hclause, hextended⟩, hnone, hopens⟩ : ∃ outside,
      (t.document.statements.take 4).foldlM (Walk.step t.surroundings) t.start = .ok outside ∧
      (((t.surroundings.lookup.classes.map (·.name)).Nodup ∧
        ("export class " ++ info.name ++ t.surroundings.lookup.extendsClause info ++ " \x7b" : Text) =
          "export class C \x7b".toList ∧ t.surroundings.lookup.extended? info = none) ∧
      outside.frames = [] ∧ (outside.step t.surroundings opening).toOption.any (fun opened =>
        decide (opened.frames = [⟨.classBody info .page, 1⟩] ∧
          accessorHeader "x" ∉ walkCalls t.surroundings outside (opening ::
            opened.openStatements t.surroundings (header :: t.document.statements.drop 6)) ∧
          (opened.step t.surroundings header).toOption.any (fun w =>
            decide (w.frames ≠ [] ∧ (∃ frame ∈ w.frames.head?, frame.construct.kind = .method) ∧
              element? w.context "x" = some ("(await this.x())" : Text) ∧
              ((t.document.statements.drop 6).foldlM (Walk.step t.surroundings) w).toOption.any
                (fun final => decide (("await (await this.x()).click();" : Text) ∈
                  (lines (Task.finishedSheet final).render).map trimLeft)) = true)) = true)) =
            true) := by
    rw [hopening, hheader, hinfo, hs]
    exact exists_of_any_toOption (by decide +kernel)
  obtain ⟨opened, hopened, hframes, hnever, hmethod⟩ := exists_of_any_toOption hopens
  obtain ⟨w, hw, hopen, ⟨frame, hframe, hkind⟩, hreference, hfinal⟩ := exists_of_any_toOption hmethod
  obtain ⟨final, hfinal, hline⟩ := exists_of_any_toOption hfinal
  obtain ⟨hdocument, hseen, hafter⟩ := hdocument
  obtain ⟨s, after, hafter⟩ := List.exists_cons_of_ne_nil hafter
  have hreached : seen.foldlM (Walk.step t.surroundings) t.start = .ok w := by
    rw [hseen]
    exact foldlM_append_eq_ok.2 ⟨outside, houtside, foldlM_cons_eq_ok.2 ⟨opened, hopened,
      foldlM_cons_eq_ok.2 ⟨w, hw, rfl⟩⟩⟩
  have hwalk : t.walk = .ok final := by
    rw [Task.walk, ← List.take_append_drop 6 t.document.statements]
    exact foldlM_append_eq_ok.2 ⟨w, hreached, hfinal⟩
  obtain ⟨o, ho, hcode⟩ : ∃ o, t.run = .ok o ∧ o.code = (Task.finishedSheet final).render := by
    rw [Task.run, hwalk]
    exact ⟨_, rfl, rfl⟩
  obtain ⟨p, hp⟩ : ∃ p : ClassPart t, p = ⟨_, opening, _, outside, opened, info, .page, 1, hdocument,
    houtside, hnone, hopened, hframes⟩ := ⟨_, rfl⟩
  have hholds : [header] ++ [s] <+: p.body := by
    rw [hp, ClassPart.body]
    dsimp only
    rw [hafter]
    refine Walk.concat_isPrefix_openStatements hopen (foldlM_cons_eq_ok.2 ⟨w, hw, rfl⟩) ?_
    exact List.cons_prefix_cons.2 ⟨rfl, List.nil_prefix⟩
  refine ⟨o, w, p, s, ho, htidy, hnames, hreached, .body frame hframe (.inl hkind) rfl, hreference,
    hcode ▸ hline, ?_, ?_, ?_⟩
  · refine ⟨[header], ?_, hholds⟩
    rw [hseen, hp]
  · rw [p.head?_calls htidy (by rw [hp]), ← hclause, hp]
  · rintro (⟨hown, -⟩ | ⟨c, hreached, -⟩)
    · rw [hp] at hown
      exact hnever hown
    · rw [hp] at hreached
      obtain ⟨b, hb, -⟩ := Relation.TransGen.head'_iff.1 hreached
      cases hextended.symm.trans hb

end Restage.Conversion
