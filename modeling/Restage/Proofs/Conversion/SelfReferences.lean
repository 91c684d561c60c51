import Restage.Proofs.Conversion.CopiedOrigins
import Restage.Proofs.Conversion.StringContents

/-!
# References to the object in the functions of steps

A method of a class of steps becomes a function, in which the page is a parameter and there is no
object.  The lines of its body refer to `this` nevertheless if the source does: callees, arguments,
conditions and values come into a line as they stand, or as the counterparts of expressions, and
`this` comes with them.

`Emission.copied` lists the parts of the source that come into the lines of an emission.  Whatever
is written around them never refers to `this`, so that a line does so only because of these parts,
and exactly if one of them does where no part leaves a literal open (`this_only_copied`).
-/

namespace Restage.Conversion

open Text Java TypeScript List Option

/-! ## Statements -/

section Statements

variable {t : Text} {ctx : Context}

lemma exists_imports_of_declined {rule : Rule} (hrule : rule ∈ rules) {v : Verdict}
    (h : rule.apply t ctx = .ok v) (hnone : v.lines = none) :
    ∃ imports, v.context = { ctx with imports := imports } := by
  by_cases hname : rule.name = chainedRule.name
  · rw [eq_chainedRule hrule hname] at h
    rcases chainedPageCall_declined h hnone with ⟨line, -, hcontext⟩ | hcontext
    · exact ⟨_, hcontext⟩
    · exact ⟨_, hcontext⟩
  · exact ⟨_, rule_declines rule hrule hname t ctx v h hnone⟩

lemma exists_imports_of_applyRules {rule : Rule} {lines : List Text} {after : Context}
    (h : applyRules t ctx rules = .ok (some (rule, lines), after)) :
    rule ∈ rules ∧ ∃ imports, rule.apply t { ctx with imports := imports } = .ok ⟨some lines, after⟩ := by
  obtain ⟨hmem, _, ⟨imports, rfl⟩, happly⟩ := exists_accepting
    (P := fun c => ∃ imports, c = { ctx with imports := imports })
    (by rintro rule hrule _ ⟨_, rfl⟩ v hv hnone; exact (exists_imports_of_declined hrule hv hnone :))
    ⟨ctx.imports, rfl⟩ h
  exact ⟨hmem, imports, happly⟩

lemma ruleCopies_imports (rule t : Text) (ctx : Context) (imports : List Text) :
    ruleCopies rule t { ctx with imports := imports } = ruleCopies rule t ctx := by
  rw [ruleCopies, ruleCopies]
  cases hget : copyingRules.get? rule with
  | none => rfl
  | some copies =>
    have hall : ∀ copies ∈ copyingRules.map (·.2), copies t { ctx with imports := imports } = copies t ctx := by
      intro copies hcopies
      simp only [copyingRules, map_cons, map_nil, mem_cons, not_mem_nil, or_false] at hcopies
      rcases hcopies with rfl | rfl | rfl | rfl | rfl | rfl | rfl | rfl | rfl | rfl | rfl | rfl | rfl | rfl <;> rfl
    exact hall copies (Lookup.mem_of_table_get? hget)

lemma Copied.text_imports (ctx : Context) (imports : List Text) :
    Copied.text { ctx with imports := imports } = Copied.text ctx := by
  funext c
  cases c <;> rfl

/-- What comes into the lines of a statement. -/
def textCopies (text : Text) (ctx : Context) : List Copied :=
  ((acceptingRule? text ctx).map fun rule => ruleCopies rule.name (trim text) ctx).getD []

/-- **A statement** becomes lines that refer to `this` because of what is copied, or a comment. -/
lemma statement_written (hctx : ctx.Detached) {number : Int} {text : Text} {lines : List Text} {after : Context}
    (h : statement number text ctx = .ok (lines, after)) :
    ∀ line ∈ lines, startsWith "//" line = false →
      Written "this" ((textCopies text ctx).map (Copied.text ctx)) line := by
  have hleft : ∀ tried, leftOver number (trim text) tried = (lines, after) →
      ∀ line ∈ lines, startsWith "//" line = true := by
    intro tried hleft
    rw [leftOver] at hleft
    split_ifs at hleft
    · cases hleft
      exact forall_mem_singleton.2 rfl
    · cases hleft
      exact forall_mem_nil _
  have hcomment : ∀ tried, leftOver number (trim text) tried = (lines, after) →
      ∀ line ∈ lines, startsWith "//" line = false →
        Written "this" ((textCopies text ctx).map (Copied.text ctx)) line := by
    intro tried htried line hline hcode
    rw [hleft tried htried line hline] at hcode
    cases hcode
  simp only [statement] at h
  split_ifs at h with hsingle
  swap
  · exact hcomment ctx (Except.ok.inj h)
  obtain ⟨⟨found, tried⟩, hrules, h⟩ := exists_of_bind_eq_ok h
  cases found with
  | none => exact hcomment tried (Except.ok.inj h)
  | some found =>
    cases h
    obtain ⟨hmem, imports, happly⟩ := exists_imports_of_applyRules hrules
    have haccepts : acceptingRule? text ctx = some found.1 := by
      rw [acceptingRule?, if_pos hsingle, hrules]
      rfl
    have hdetached : Context.Detached { ctx with imports := imports } := ⟨hctx.page, hctx.self⟩
    have hwritten := rule_written found.1 hmem (trim text) _ hdetached _ happly _ rfl
    rw [ruleCopies_imports, Copied.text_imports] at hwritten
    rw [textCopies, haccepts]
    exact fun line hline _ => hwritten line hline

lemma textCopies_origin {text : Text} {c : Copied} (h : c ∈ textCopies text ctx) :
    c.source <:+: text ∨ ctx.className = some c.source := by
  rw [textCopies] at h
  cases hrule : acceptingRule? text ctx with
  | none =>
    rw [hrule] at h
    cases h
  | some rule =>
    rw [hrule] at h
    exact (ruleCopies_origin h).imp_left (·.trans (trim_isInfix text))

end Statements

/-! ## Control headers -/

section Headers

variable {t : Text} {ctx : Context}

/-- The condition of a header. -/
def condition? (t : Text) : Option Text :=
  (conditionKeyword? t).bind fun found => (beforeBlock? found.2).filter onOneLine

/-- What comes into the counterpart of a header. -/
def headerCopies (t : Text) : List Copied :=
  match condition? t with
  | some condition => [.expression condition]
  | none => match itemLoop? t with
    | some (name, listed) => [.plain name, .expression listed]
    | none => ((countingLoop? t).or (caught? t)).toList.map .plain

lemma headed?_isSuffix {word r : Text} (h : headed? word t = some r) : r <:+ t := by
  obtain ⟨rest, hrest, hread⟩ := bind_eq_some_iff.1 h
  exact (literal?_isSuffix hread).trans ((blanks_isSuffix rest).trans (literal?_isSuffix hrest))

lemma beforeBlock?_isPrefix {r : Text} (h : beforeBlock? t = some r) : r <+: t := by
  obtain ⟨rest, hrest, hread⟩ := bind_eq_some_iff.1 h
  exact (dropFinal?_isPrefix hread).trans ((dropEnd_isPrefix isBlank rest).trans
    ((dropFinal?_isPrefix hrest).trans (dropFinalNewline_isPrefix t)))

lemma conditionKeyword?_eq_some {keyword r : Text} (h : conditionKeyword? t = some (keyword, r)) :
    keyword ∈ (["if", "else if", "while"] : List Text) ∧ r <:+ t := by
  rcases or_eq_some_iff.1 h with hread | ⟨-, hread⟩
  · obtain ⟨r, hread, heq⟩ := map_eq_some_iff.1 hread
    cases heq
    exact ⟨by simp, headed?_isSuffix hread⟩
  rcases or_eq_some_iff.1 hread with hread | ⟨-, hread⟩
  · obtain ⟨r, hread, heq⟩ := map_eq_some_iff.1 hread
    cases heq
    obtain ⟨rest, hrest, hread⟩ := bind_eq_some_iff.1 hread
    obtain ⟨start, hstart, hrest⟩ := bind_eq_some_iff.1 hrest
    exact ⟨by simp, (headed?_isSuffix hread).trans ((someBlanks?_isSuffix hrest).trans (literal?_isSuffix hstart))⟩
  · obtain ⟨r, hread, heq⟩ := map_eq_some_iff.1 hread
    cases heq
    exact ⟨by simp, headed?_isSuffix hread⟩

lemma conditionHeader?_eq_none (h : condition? t = none) : conditionHeader? ctx t = none := by
  rw [condition?] at h
  rw [conditionHeader?]
  cases hkeyword : conditionKeyword? t with
  | none => rfl
  | some found =>
    rw [hkeyword, bind_some] at h
    simp [h]

lemma conditionHeader?_written (ctx : Context) {condition : Text} (h : condition? t = some condition) :
    ∃ header, conditionHeader? ctx t = some header ∧ Composed "this" [expression ctx condition] header := by
  obtain ⟨⟨keyword, r⟩, hkeyword, hcondition⟩ := bind_eq_some_iff.1 h
  have hlead : ∀ keyword ∈ (["if", "else if", "while"] : List Text), Leads (keyword ++ " (") := by decide
  have hline := composed_lead (hlead keyword (conditionKeyword?_eq_some hkeyword).1)
    (composed_trail (.part (expression ctx condition)) (c := ") \x7b") (by decide))
  rw [← append_assoc] at hline
  refine ⟨_, ?_, hline⟩
  exact bind_eq_some_iff.2 ⟨_, hkeyword, bind_eq_some_iff.2 ⟨condition, hcondition, rfl⟩⟩

/-- The counterparts of the other headers. -/
lemma plainHeader_written {header : Text}
    (h : ((countingLoop? t).map fun (inside : Text) => ("for (let " ++ inside ++ ") \x7b" : Text)).or
      (((caught? t).map fun (name : Text) => ("catch (" ++ name ++ ") \x7b" : Text)).or
        ((plainBlock? t).map fun (keyword : Text) => (keyword ++ " \x7b" : Text))) = some header) :
    Composed "this" ((countingLoop? t).or (caught? t)).toList header := by
  cases hcounting : countingLoop? t with
  | some inside =>
    rw [hcounting] at h
    cases h
    have hline := composed_lead (c := "for (let ") (by decide)
      (composed_trail (.part inside) (c := ") \x7b") (by decide))
    rwa [← append_assoc] at hline
  | none =>
    rw [hcounting] at h
    cases hcaught : caught? t with
    | some name =>
      rw [hcaught] at h
      cases h
      have hline := composed_lead (c := "catch (") (by decide)
        (composed_trail (.part name) (c := ") \x7b") (by decide))
      rwa [← append_assoc] at hline
    | none =>
      rw [hcaught] at h
      obtain ⟨keyword, hkeyword, rfl⟩ := map_eq_some_iff.1 h
      obtain ⟨⟨found, r⟩, hfound, hread⟩ := bind_eq_some_iff.1 hkeyword
      obtain ⟨_, -, hread⟩ := bind_eq_some_iff.1 hread
      split_ifs at hread
      cases hread
      have hall : ∀ keyword ∈ (["else", "try", "finally"] : List Text), Leads (keyword ++ " \x7b") := by decide
      obtain ⟨hclosed, hfree, -⟩ := hall keyword (oneOf?_eq_some hfound).1
      exact .fixed hclosed hfree

/-- **A control header** is written from what is copied, in the context of its block. -/
lemma controlHeader?_written {header : Text} {inner : Context} (h : controlHeader? ctx t = some (header, inner)) :
    Composed "this" ((headerCopies t).map (Copied.text inner)) header := by
  rw [headerCopies]
  rw [controlHeader?] at h
  cases hcondition : condition? t with
  | some condition =>
    obtain ⟨line, hline, hwritten⟩ := conditionHeader?_written ctx hcondition
    rw [hline] at h
    cases h
    exact hwritten
  | none =>
    rw [conditionHeader?_eq_none hcondition] at h
    cases hloop : itemLoop? t with
    | some found =>
      rw [hloop] at h
      cases h
      have hlisted := composed_lead (c := " of ") (by decide)
        (composed_trail (.part (expression (ctx.declare found.1 []) found.2)) (c := ") \x7b") (by decide))
      have hline := composed_lead (c := "for (const ") (by decide)
        (composed_next (p := found.1) hlisted (head_append (by decide) _))
      simp only [append_assoc] at hline ⊢
      exact hline
    | none =>
      rw [hloop] at h
      obtain ⟨line, hline, hsame⟩ := map_eq_some_iff.1 h
      cases hsame
      rw [map_plain_toList]
      exact plainHeader_written hline

lemma headerCopies_from (t : Text) : CopiedFrom t (headerCopies t) := by
  rw [headerCopies]
  split
  next condition hcondition =>
    obtain ⟨⟨keyword, r⟩, hkeyword, hcondition⟩ := bind_eq_some_iff.1 hcondition
    have hblock := beforeBlock?_isPrefix (filter_eq_some_iff.1 hcondition).1
    exact .cons (hblock.isInfix.trans (conditionKeyword?_eq_some hkeyword).2.isInfix) .nil
  split
  next name listed hloop =>
    obtain ⟨r, hr, hloop⟩ := bind_eq_some_iff.1 hloop
    obtain ⟨start, hstart, hloop⟩ := exists_of_findSome?_eq_some hloop
    obtain ⟨behind, hbehind, hloop⟩ := exists_of_findSome?_eq_some hloop
    obtain ⟨⟨name, after⟩, hname, hloop⟩ := bind_eq_some_iff.1 hloop
    obtain ⟨items, hitems, hloop⟩ := bind_eq_some_iff.1 hloop
    obtain ⟨block, hblock, hloop⟩ := bind_eq_some_iff.1 hloop
    cases hloop
    obtain ⟨gap, hgap, hname⟩ := bind_eq_some_iff.1 hname
    have hsuffix : gap <:+ t := (someBlanks?_isSuffix hgap).trans ((Skips.typeEnds hbehind).suffix.trans
      ((Skips.afterFinal hstart).suffix.trans ((blanks_isSuffix r).trans (headed?_isSuffix hr))))
    have hafter : items <:+ t := (literal?_isSuffix hitems).trans ((blanks_isSuffix after).trans
      ((word?_parts hname).2.trans hsuffix))
    have hblock := beforeBlock?_isPrefix (filter_eq_some_iff.1 hblock).1
    refine .cons ((word?_parts hname).1.isInfix.trans hsuffix.isInfix) (.cons ?_ .nil)
    exact (trim_isInfix block).trans (hblock.isInfix.trans hafter.isInfix)
  refine .map (fun _ => rfl) fun u hu => ?_
  rcases or_eq_some_iff.1 (mem_toList.1 hu) with hread | ⟨-, hread⟩
  · obtain ⟨r, hr, hread⟩ := bind_eq_some_iff.1 hread
    obtain ⟨⟨type, behind⟩, hbehind, hread⟩ := bind_eq_some_iff.1 hread
    obtain ⟨gap, hgap, hread⟩ := bind_eq_some_iff.1 hread
    obtain ⟨_, -, hread⟩ := bind_eq_some_iff.1 hread
    obtain ⟨_, -, hread⟩ := bind_eq_some_iff.1 hread
    obtain ⟨_, -, hread⟩ := bind_eq_some_iff.1 hread
    have hsuffix : gap <:+ t := (someBlanks?_isSuffix hgap).trans ((oneOf?_eq_some hbehind).2.trans
      ((blanks_isSuffix r).trans (headed?_isSuffix hr)))
    exact (beforeBlock?_isPrefix hread).isInfix.trans hsuffix.isInfix
  · obtain ⟨r, hr, hread⟩ := bind_eq_some_iff.1 hread
    obtain ⟨inside, hinside, hread⟩ := bind_eq_some_iff.1 hread
    dsimp only at hread
    split_ifs at hread
    cases hread
    have hinside := beforeBlock?_isPrefix (filter_eq_some_iff.1 hinside).1
    have hname : ((trimRight inside).reverse.takeWhile (!isBlank ·)).reverse <:+: trimRight inside := by
      have hprefix : (trimRight inside).reverse.takeWhile (!isBlank ·) <+: (trimRight inside).reverse :=
        takeWhile_prefix _
      rw [← reverse_suffix, reverse_reverse] at hprefix
      exact hprefix.isInfix
    exact hname.trans ((dropEnd_isPrefix isBlank inside).isInfix.trans
      (hinside.isInfix.trans (headed?_isSuffix hr).isInfix))

end Headers

/-! ## What is written for a method -/

namespace Emission

/-- The calls that write the body of a method; comments apart. -/
def codeCalls : Emission → List Call
  | header _ | comment _ => []
  | e => e.calls

/-- The lines in the body of a method that are no comments. -/
def codeLines (e : Emission) : List Text := (e.codeCalls.flatMap Call.lines).filter (!startsWith "//" ·)

/-- The parts of the source that come into the lines. -/
def copied : Emission → List Copied
  | page f => [.plain f.name, .plain f.elementType]
  | code _ text ctx => textCopies text ctx
  | block text _ | chain text _ => headerCopies text
  | header _ | kept _ | comment _ | margin _ => []

/-- The context in which they are converted: for a control header, that of its block. -/
def inner : Emission → Context
  | code _ _ ctx => ctx
  | block text ctx | chain text ctx => ((controlHeader? ctx text).map (·.2)).getD ctx
  | header _ | page _ | kept _ | comment _ | margin _ => { pageRef := "page", selfRef := none }

/-- The texts in which the parts stand: a statement, a page object, or the name of the class. -/
def origins : Emission → List Text
  | page f => [f.name, f.elementType]
  | code _ text ctx => text :: ctx.className.toList
  | block text _ | chain text _ => [text]
  | header _ | kept _ | comment _ | margin _ => []

variable {e : Emission} {setting : Context}

/-- **The copied parts** stand in their origins. -/
lemma exists_origin {c : Copied} (h : c ∈ e.copied) : ∃ o ∈ e.origins, c.source <:+: o := by
  cases e with
  | header | kept | comment | margin => cases h
  | page f =>
    rcases mem_cons.1 h with rfl | h
    · exact ⟨f.name, mem_cons_self, infix_rfl⟩
    · rw [mem_singleton.1 h]
      exact ⟨f.elementType, mem_cons_of_mem _ mem_cons_self, infix_rfl⟩
  | code line text ctx =>
    rcases textCopies_origin h with htext | hclass
    · exact ⟨text, mem_cons_self, htext⟩
    · exact ⟨c.source, mem_cons_of_mem _ (mem_toList.2 hclass), infix_rfl⟩
  | block text ctx | chain text ctx => exact ⟨text, mem_cons_self, headerCopies_from text c h⟩

lemma Within.detached (h : e.Within setting) (hsetting : setting.Detached) : e.inner.Detached := by
  have hsame : ∀ {ctx : Context}, ctx.setting = setting → ctx.Detached := by
    rintro ctx rfl
    exact ⟨hsetting.page, hsetting.self⟩
  have hblock : ∀ {ctx : Context} (text : Text), ctx.setting = setting →
      (((controlHeader? ctx text).map (·.2)).getD ctx).Detached := by
    intro ctx text hctx
    cases hheader : controlHeader? ctx text with
    | none => exact hsame hctx
    | some said => exact hsame ((controlHeader?_setting hheader).trans hctx)
  cases e with
  | header | page | kept | comment | margin => exact ⟨rfl, rfl⟩
  | code line text ctx => exact hsame (h.context ctx rfl).2
  | block text ctx | chain text ctx => exact hblock text (h.context ctx rfl).2

/-- **What is written for a method** of steps refers to `this` because of the copied parts. -/
lemma Within.written_copied (h : e.Within setting) (hsetting : setting.Detached) :
    ∀ line ∈ e.codeLines, Written "this" (e.copied.map (Copied.text e.inner)) line := by
  intro line hline
  obtain ⟨hmem, hcode⟩ := mem_filter.1 hline
  obtain ⟨call, hcall, hadds⟩ := mem_flatMap.1 hmem
  rw [Bool.not_eq_true'] at hcode
  cases e with
  | header | comment => cases hcall
  | page f =>
    rw [mem_singleton.1 hcall] at hadds
    rw [mem_singleton.1 hadds]
    have hobject := composed_lead (c := " = new ") (by decide)
      (composed_trail (.part f.elementType) (c := "(page);") (by decide))
    have hwritten := composed_lead (c := "const ") (by decide)
      (composed_next (p := f.name) hobject (head_append (by decide) _))
    simp only [append_assoc] at hwritten ⊢
    exact .of_composed hwritten
  | code number text ctx =>
    have hcalls : call ∈ convertCalls number text ctx := hcall
    rw [convertCalls] at hcalls
    split at hcalls
    next lines after hstatement =>
      rw [mem_singleton.1 hcalls] at hadds
      exact statement_written (h.detached hsetting) hstatement line hadds hcode
    · cases hcalls
  | block text ctx =>
    obtain ⟨said, hsaid, rfl⟩ := map_eq_some_iff.1 (mem_toList.1 hcall)
    rw [mem_singleton.1 hadds, inner, hsaid]
    exact .of_composed (controlHeader?_written hsaid)
  | chain text ctx =>
    obtain ⟨said, hsaid, rfl⟩ := map_eq_some_iff.1 (mem_toList.1 hcall)
    rw [mem_singleton.1 hadds, inner, hsaid]
    exact .of_composed (composed_lead (c := "\x7d ") (by decide) (controlHeader?_written hsaid))
  | kept s =>
    rw [mem_singleton.1 hcall] at hadds
    rw [mem_singleton.1 hadds] at hcode
    cases hcode
  | margin c =>
    have hmargin := h.margin c rfl
    rw [mem_singleton.1 hcall] at hadds
    cases c with
    | closeScope | blank | insert => cases hadds
    | addImport | emit | comment | openScope | chain => cases hmargin

lemma Within.closer_eq (h : e.Within setting) {line closer : Text} (hcall : Call.openScope line closer ∈ e.codeCalls) :
    closer = "\x7d".toList := by
  cases e with
  | header | comment => cases hcall
  | page f => cases mem_singleton.1 hcall
  | code number text ctx =>
    have hcalls : Call.openScope line closer ∈ convertCalls number text ctx := hcall
    rw [convertCalls] at hcalls
    split at hcalls
    · cases mem_singleton.1 hcalls
    · cases hcalls
  | block text ctx =>
    obtain ⟨said, -, hsame⟩ := map_eq_some_iff.1 (mem_toList.1 hcall)
    cases hsame
    rfl
  | chain text ctx =>
    obtain ⟨said, -, hsame⟩ := map_eq_some_iff.1 (mem_toList.1 hcall)
    cases hsame
  | kept s => cases mem_singleton.1 hcall
  | margin c =>
    have hmargin := h.margin c rfl
    rw [← mem_singleton.1 hcall] at hmargin
    cases hmargin

end Emission

/-- **The function of a step** refers to `this` only where the source does.  A line of its body has
the word in its code only if it stands in one of the parts of the source that are copied there.  If
these parts leave no literal open, the line refers to `this` exactly if one of them does, and then
that part does so in the source as well.  Blocks are closed by a brace. -/
theorem this_only_copied (t : Task) (p : MethodPart t) (hsteps : p.method.style = .steps) :
    (emittedCalls p.emissions = p.calls ∧ p.calls <:+: t.calls) ∧
      ∀ e ∈ p.emissions,
        (∀ c ∈ e.copied, ∃ o ∈ e.origins, c.source <:+: o) ∧
        (∀ line closer, Call.openScope line closer ∈ e.codeCalls → closer = "\x7d".toList) ∧
        ∀ line ∈ e.codeLines,
          (Refers "this" line → ∃ c ∈ e.copied, HasWord "this" (c.text e.inner)) ∧
          ((∀ c ∈ e.copied, c.Steady e.inner) →
            (Refers "this" line ↔ ∃ c ∈ e.copied, Refers "this" (c.text e.inner)) ∧
            (Refers "this" line → ∃ c ∈ e.copied, Refers "this" c.source)) := by
  refine ⟨⟨p.calls_emissions, p.calls_infix⟩, fun e he => ?_⟩
  have hwithin := p.within_emissions e he
  have hsetting : Context.Detached p.started.context.setting :=
    ⟨(p.refs_of_steps hsteps).1, (p.refs_of_steps hsteps).2⟩
  have hparts : ∀ Q : Text → Prop, (∃ u ∈ e.copied.map (Copied.text e.inner), Q u) ↔
      ∃ c ∈ e.copied, Q (c.text e.inner) := by simp
  refine ⟨fun c hc => e.exists_origin hc, fun line closer hcall => hwithin.closer_eq hcall, fun line hline => ?_⟩
  have hwritten := hwithin.written_copied hsetting line hline
  refine ⟨fun hthis => (hparts _).1 (hwritten.hasWord hthis), fun hsteady => ?_⟩
  have hsteady : ∀ c ∈ e.copied, IsClosed (c.text e.inner) ∧
      (Refers "this" (c.text e.inner) → Refers "this" c.source) :=
    fun c hc => (hsteady c hc).text (hwithin.detached hsetting)
  have hiff : Refers "this" line ↔ ∃ c ∈ e.copied, Refers "this" (c.text e.inner) := by
    rw [hwritten.refers (List.forall_mem_map.2 fun c hc => (hsteady c hc).1), hparts]
  refine ⟨hiff, fun hthis => ?_⟩
  obtain ⟨c, hc, hrefers⟩ := hiff.1 hthis
  exact ⟨c, hc, (hsteady c hc).2 hrefers⟩

/-- A step that calls a page object with the word in a literal. -/
theorem this_only_copied_quoted :
    let t : Task :=
      { document := ⟨["class A \x7b", "LoginPage login;", "@When(\"go\")", "void go() \x7b",
          "login.open(\"this\");", "\x7d", "\x7d"]⟩
        baseImports := ({} : Settings).baseImports }
    ∃ p : MethodPart t, p.method.style = .steps ∧
      p.emissions.flatMap Emission.codeLines = [("await login.open(\"this\");" : Text)] ∧
      ∀ e ∈ p.emissions, (∀ c ∈ e.copied, c.Steady e.inner) ∧ ∀ line ∈ e.codeLines, ¬Refers "this" line := by
  intro t
  have hs := t.surroundings_of_sorted (by decide +kernel)
  -- The method is declared by the fourth statement.
  obtain ⟨p, hsteps, hlines, hcopied⟩ : ∃ p : MethodPart t, p.method.style = .steps ∧
      p.emissions.flatMap Emission.codeLines = [("await login.open(\"this\");" : Text)] ∧
      p.emissions.flatMap Emission.copied = [.plain "login", .plain "open", .expression "\"this\""] := by
    refine Task.exists_methodPart (n := 3) (P := fun found => found.1.style = .steps ∧
      found.2.flatMap Emission.codeLines = [("await login.open(\"this\");" : Text)] ∧
      found.2.flatMap Emission.copied = [.plain "login", .plain "open", .expression "\"this\""]) ?_
    rw [hs]
    decide +kernel
  -- The literal is steady, since nothing is exchanged in it, and no part refers to the word.
  have hparts : ∀ c ∈ p.emissions.flatMap Emission.copied, (∀ ctx, c.Steady ctx) ∧ ¬Refers "this" c.source := by
    have hname : ∀ name ∈ (["login", "open"] : List Text), IsClosed name ∧ ¬"this".toList <:+: name := by decide
    have hliteral : ∀ ctx : Context, Steady ctx "\"this\"" := fun ctx =>
      .of_no_site (by decide) (noSearchRead_of_not_mem (by decide))
        fun hsite => absurd hsite.mem_parenthesis (by decide)
    have hquiet : Quiet "this" "\"this\"" := quiet_of_not_mem_mask (by decide) (by decide) (by decide)
    rw [hcopied]
    simp only [List.forall_mem_cons]
    exact ⟨⟨fun _ => (hname "login" (by decide)).1, fun h => (hname "login" (by decide)).2 h.hasWord.infix⟩,
      ⟨fun _ => (hname "open" (by decide)).1, fun h => (hname "open" (by decide)).2 h.hasWord.infix⟩,
      ⟨hliteral, hquiet.not_refers⟩, List.forall_mem_nil _⟩
  refine ⟨p, hsteps, hlines, fun e he => ?_⟩
  have hmem : ∀ c ∈ e.copied, c ∈ p.emissions.flatMap Emission.copied :=
    fun c hc => List.mem_flatMap.2 ⟨e, he, hc⟩
  have hsteady : ∀ c ∈ e.copied, c.Steady e.inner := fun c hc => (hparts c (hmem c hc)).1 e.inner
  refine ⟨hsteady, fun line hline hthis => ?_⟩
  obtain ⟨c, hc, hsource⟩ := (((this_only_copied t p hsteps).2 e he).2.2 line hline).2 hsteady |>.2 hthis
  exact (hparts c (hmem c hc)).2 hsource

/-- A step that calls a page object through the field of the object. -/
theorem step_refers_to_this :
    let t : Task :=
      { document := ⟨["class A \x7b", "LoginPage login;", "@When(\"go\")", "void go() \x7b",
          "this.login.open(2);", "\x7d", "\x7d"]⟩
        baseImports := ({} : Settings).baseImports }
    ∃ (p : MethodPart t) (o : Output), t.run = .ok o ∧ p.method.style = .steps ∧
      p.emissions.flatMap Emission.codeLines = [("await this.login.open(2);" : Text)] ∧
      ("await this.login.open(2);" : Text) ∈ (lines o.code).map trimLeft ∧
      Refers "this" "await this.login.open(2);" := by
  intro t
  have hs := t.surroundings_of_sorted (by decide +kernel)
  obtain ⟨p, hsteps, hlines⟩ : ∃ p : MethodPart t, p.method.style = .steps ∧
      p.emissions.flatMap Emission.codeLines = [("await this.login.open(2);" : Text)] := by
    refine Task.exists_methodPart (n := 3) (P := fun found => found.1.style = .steps ∧
      found.2.flatMap Emission.codeLines = [("await this.login.open(2);" : Text)]) ?_
    rw [hs]
    decide +kernel
  obtain ⟨final, hwalk, hline⟩ : ∃ final, t.walk = .ok final ∧
      ("await this.login.open(2);" : Text) ∈ (lines (Task.finishedSheet final).render).map trimLeft := by
    rw [Task.walk, hs]
    exact exists_of_any_toOption (by decide +kernel)
  obtain ⟨o, ho, hcode⟩ : ∃ o, t.run = .ok o ∧ o.code = (Task.finishedSheet final).render := by
    rw [Task.run, hwalk]
    exact ⟨_, rfl, rfl⟩
  refine ⟨p, o, ho, hsteps, hlines, hcode ▸ hline, "await ", ".login.open(2);", rfl, by decide, ?_, ?_⟩
  · rintro _ ⟨⟩
    decide
  · rintro _ ⟨⟩
    decide

end Restage.Conversion
