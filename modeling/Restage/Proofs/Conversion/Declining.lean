import Restage.Proofs.Conversion.CapturedArguments
import Restage.Proofs.Conversion.Faults

/-!
# Rules that decline

The rules are tried one after the other on one context, so what a rule does before it declines is
still there when the next one is tried, and it stays if none of them accepts.  Fourteen of the
fifteen rules find out whether they accept before they touch the context.  The call on a new page
object imports the class first and looks for the parentheses of the call afterwards; if the call is
`Tangled` it declines, and the import is left behind (`StrayImport`).

So a rule that declines leaves no trace exactly if there is no such import, and a statement that is
left over changes nothing but the diagnostics under the same condition
(`declined_without_trace_iff`).
-/

namespace Restage.Conversion

open Text Java List Option

/-! ## Imports -/

namespace Context

variable {ctx : Context} {name line : Text}

lemma importClass_of_new (h : ctx.importOf? name = some line) (hnew : line ∉ ctx.imports) :
    ctx.importClass name = { ctx with imports := ctx.imports ++ [line] } := by
  rw [importClass, h]
  dsimp only
  rw [addImport, addNew, if_neg (by simpa using hnew)]

lemma importClass_of_known (h : ∀ line ∈ ctx.importOf? name, line ∈ ctx.imports) :
    ctx.importClass name = ctx := by
  rw [importClass]
  cases hline : ctx.importOf? name with
  | none => rfl
  | some line =>
    have hknown : ctx.imports.contains line = true := by simpa using h line hline
    dsimp only
    rw [addImport, addNew, if_pos hknown]

end Context

/-- A statement leaves an import behind although it is not converted: it is a call on a new page
object, the call is tangled, and the import of the class is new. -/
inductive StrayImport (ctx : Context) (t line : Text) : Prop
  | intro (className name args : Text) :
      chainedCall? t = some (className, name ++ "(" ++ args ++ ")") → isWordText name = true →
      ctx.isPageClass className = true → Tangled args →
      ctx.importOf? className = some line → line ∉ ctx.imports → StrayImport ctx t line

variable {t : Text} {ctx after : Context}

lemma splitCall?_eq_none_iff_tangled {name : Text} (hname : isWordText name = true) (args : Text) :
    splitCall? (name ++ "(" ++ args ++ ")" ++ ";") = none ↔ Tangled args := by
  have hdotted : ∀ c ∈ name, isDotted c = true := fun c hc => by rw [isDotted, all_isWord hname c hc]; rfl
  have hgap : ∀ c ∈ ([] : Text), isBlank c = true := by simp
  rw [← splitCall?_call_eq_none_iff hdotted hgap args]
  simp

/-! ## Rules -/

section Rules

variable {t : Text} {ctx after : Context} {line : Text}

/-- A rule that is an option touches nothing unless the option holds something. -/
lemma ofOption_declines (ctx : Context) (o : Option (Text × Context)) :
    Declines ctx (Verdict.ofOption ctx o) :=
  .ofOption (fun _ => rfl) fun _ _ _ h => by cases h

/-- The rule for calls on new page objects. -/
def chainedRule : Rule := ⟨"chained_page_call", .passthrough, chainedPageCall⟩

lemma rule_declines : ∀ rule ∈ rules, rule.name ≠ chainedRule.name →
    ∀ t ctx, Declines ctx (rule.apply t ctx) := by
  simp only [rules, forall_mem_cons]
  exact ⟨fun _ _ _ => elementWait_declines, fun _ _ _ => driverWait_declines,
    fun _ _ _ => elementAction_declines, fun _ _ _ => sleep_declines, fun _ _ _ => ofOption_declines _ _,
    fun _ _ _ => ofOption_declines _ _, fun _ _ _ => ofOption_declines _ _,
    fun _ _ _ => ofOption_declines _ _, fun _ _ _ => ofOption_declines _ _,
    fun _ _ _ => ofOption_declines _ _, fun h => absurd rfl h, fun _ _ _ => ofOption_declines _ _,
    fun _ _ _ => ofOption_declines _ _, fun _ _ _ => ofOption_declines _ _,
    fun _ _ _ => ofOption_declines _ _, by simp⟩

lemma eq_chainedRule {rule : Rule} (h : rule ∈ rules) (hname : rule.name = chainedRule.name) :
    rule = chainedRule := by
  have hnames : (rules.map (·.name)).Nodup := by decide
  exact inj_on_of_nodup_map hnames h (mem_of_getElem? (i := 10) rfl) hname

lemma chainedPageCall_declined {v : Verdict} (h : chainedPageCall t ctx = .ok v) (hnone : v.lines = none) :
    (∃ line, StrayImport ctx t line ∧ v.context = { ctx with imports := ctx.imports ++ [line] }) ∨
      v.context = ctx := by
  rw [chainedPageCall] at h
  cases hfound : chainedCall? t with
  | none =>
    rw [hfound] at h
    cases h
    exact .inr rfl
  | some found =>
    obtain ⟨className, call⟩ := found
    obtain ⟨-, name, args, -, rfl, hname⟩ := chainedCall?_parts hfound
    rw [hfound] at h
    dsimp only at h
    by_cases hpage : ctx.isPageClass className = true
    swap
    · rw [if_neg hpage] at h
      cases h
      exact .inr rfl
    rw [if_pos hpage] at h
    cases hsplit : splitCall? (name ++ "(" ++ args ++ ")" ++ ";") with
    | some split =>
      rw [hsplit] at h
      cases h
      cases hnone
    | none =>
      rw [hsplit] at h
      cases h
      have htangled := (splitCall?_eq_none_iff_tangled hname args).1 hsplit
      by_cases hnew : ∃ line ∈ ctx.importOf? className, line ∉ ctx.imports
      · obtain ⟨line, hline, hnew⟩ := hnew
        exact .inl ⟨line, ⟨className, name, args, hfound, hname, hpage, htangled, hline, hnew⟩,
          Context.importClass_of_new hline hnew⟩
      · simp only [not_exists, not_and, not_not] at hnew
        exact .inr (Context.importClass_of_known hnew)

lemma StrayImport.chainedPageCall (h : StrayImport ctx t line) :
    chainedPageCall t ctx = .ok ⟨none, { ctx with imports := ctx.imports ++ [line] }⟩ := by
  obtain ⟨className, name, args, hfound, hname, hpage, htangled, hline, hnew⟩ := h
  have hsplit := (splitCall?_eq_none_iff_tangled hname args).2 htangled
  rw [Conversion.chainedPageCall, hfound]
  dsimp only
  rw [if_pos hpage, hsplit, ← Context.importClass_of_new hline hnew]
  rfl

lemma StrayImport.unique {line' : Text} (h : StrayImport ctx t line) (h' : StrayImport ctx t line') :
    line = line' := by
  have hsame := h.chainedPageCall.symm.trans h'.chainedPageCall
  simpa using hsame

end Rules

/-! ## Statements -/

lemma applyRules_none_of_declines {tried : List Rule}
    (htried : ∀ rule ∈ tried, ∀ t ctx, Declines ctx (rule.apply t ctx))
    (h : applyRules t ctx tried = .ok (none, after)) : after = ctx := by
  induction tried generalizing ctx with
  | nil => cases h; rfl
  | cons rule rest ih =>
    rw [forall_mem_cons] at htried
    obtain ⟨verdict, hverdict, ⟨_, -, ⟨⟩⟩ | ⟨hlines, h⟩⟩ := applyRules_cons_eq_ok h
    rw [ih htried.2 h, htried.1 t ctx verdict hverdict hlines]

lemma applyRules_append_none {tried rest : List Rule}
    (h : applyRules t ctx (tried ++ rest) = .ok (none, after)) :
    ∃ between, applyRules t ctx tried = .ok (none, between) ∧
      applyRules t between rest = .ok (none, after) := by
  induction tried generalizing ctx with
  | nil => exact ⟨ctx, rfl, h⟩
  | cons rule tried ih =>
    obtain ⟨verdict, hverdict, ⟨_, -, ⟨⟩⟩ | ⟨hlines, h⟩⟩ := applyRules_cons_eq_ok h
    obtain ⟨between, hbetween, hrest⟩ := ih h
    refine ⟨between, ?_, hrest⟩
    rw [applyRules, hverdict]
    dsimp only [bind, Except.bind]
    rw [hlines]
    exact hbetween

/-- **All rules decline**: a stray import is all that can be left of them. -/
lemma applyRules_none (h : applyRules t ctx rules = .ok (none, after)) :
    (∃ line, StrayImport ctx t line ∧ after = { ctx with imports := ctx.imports ++ [line] }) ∨
      after = ctx ∧ ∀ line, ¬StrayImport ctx t line := by
  have hrules : rules = rules.take 10 ++ chainedRule :: rules.drop 11 := rfl
  have hothers : ∀ rule ∈ rules.take 10 ++ rules.drop 11, ∀ t ctx, Declines ctx (rule.apply t ctx) := by
    have hnames : ∀ rule ∈ rules.take 10 ++ rules.drop 11, rule.name ≠ chainedRule.name := by decide
    intro rule hmem
    refine rule_declines rule ?_ (hnames rule hmem)
    rw [hrules]
    rcases mem_append.1 hmem with hmem | hmem
    · exact mem_append_left _ hmem
    · exact mem_append_right _ (mem_cons_of_mem _ hmem)
  rw [hrules] at h
  obtain ⟨between, hearlier, hlater⟩ := applyRules_append_none h
  obtain rfl := applyRules_none_of_declines (fun rule hmem => hothers rule (mem_append_left _ hmem))
    hearlier
  obtain ⟨verdict, hverdict, ⟨_, -, ⟨⟩⟩ | ⟨hlines, hlater⟩⟩ := applyRules_cons_eq_ok hlater
  obtain rfl := applyRules_none_of_declines (fun rule hmem => hothers rule (mem_append_right _ hmem)) hlater
  by_cases hstray : ∃ line, StrayImport between t line
  · obtain ⟨line, hline⟩ := hstray
    have hcall := hverdict.symm.trans hline.chainedPageCall
    cases hcall
    exact .inl ⟨line, hline, rfl⟩
  · rw [not_exists] at hstray
    rcases chainedPageCall_declined hverdict hlines with ⟨line, hline, -⟩ | hsame
    · exact absurd hline (hstray line)
    · exact .inr ⟨hsame, hstray⟩

/-- A statement is left over: it is several statements, or no rule accepts it. -/
def LeftOver (text : Text) (ctx : Context) : Prop :=
  isSingle (trim text) = true → ∃ after, applyRules (trim text) ctx rules = .ok (none, after)

lemma statement_of_leftOver {text : Text} (h : LeftOver text ctx) (line : Int) :
    ∃ tried, statement line text ctx = .ok (leftOver line (trim text) tried) ∧
      ((∃ added, isSingle (trim text) = true ∧ StrayImport ctx (trim text) added ∧
          tried = { ctx with imports := ctx.imports ++ [added] }) ∨
        tried = ctx ∧ ∀ added, isSingle (trim text) = true → ¬StrayImport ctx (trim text) added) := by
  unfold statement
  by_cases hsingle : isSingle (trim text) = true
  · obtain ⟨tried, htried⟩ := h hsingle
    refine ⟨tried, by rw [if_pos hsingle, htried]; rfl, ?_⟩
    rcases applyRules_none htried with ⟨added, hstray, rfl⟩ | ⟨rfl, hnone⟩
    · exact .inl ⟨added, hsingle, hstray, rfl⟩
    · exact .inr ⟨rfl, fun added _ => hnone added⟩
  · exact ⟨ctx, by rw [if_neg hsingle], .inr ⟨rfl, fun _ h => absurd h hsingle⟩⟩

/-- **A rule that declines** leaves the context as it was, unless it is the rule for calls on new
page objects and there is a stray import; then the import is what it leaves.  **A statement that is
left over** becomes a comment in a method and nothing elsewhere, and it changes nothing but the
diagnostics, with the same exception. -/
theorem declined_without_trace_iff (ctx : Context) :
    (∀ rule ∈ rules, ∀ t v, rule.apply t ctx = .ok v → v.lines = none →
      (v.context = ctx ↔ ¬(rule.name = chainedRule.name ∧ ∃ added, StrayImport ctx t added)) ∧
      ∀ added, rule.name = chainedRule.name → StrayImport ctx t added →
        v.context = { ctx with imports := ctx.imports ++ [added] }) ∧
    ∀ line text, LeftOver text ctx → ∃ after noted, statement line text ctx =
        .ok (if ctx.inMethod then ["// TODO: " ++ trim text] else [], after) ∧
      (after = { ctx with diagnostics := ctx.diagnostics ++ [noted] } ↔
        ¬(isSingle (trim text) = true ∧ ∃ added, StrayImport ctx (trim text) added)) ∧
      ∀ added, isSingle (trim text) = true → StrayImport ctx (trim text) added →
        after = { ctx with imports := ctx.imports ++ [added]
                           diagnostics := ctx.diagnostics ++ [noted] } := by
  have hlonger : ∀ (imports : List Text) (added : Text), imports ++ [added] ≠ imports := by simp
  refine ⟨fun rule hmem t v hv hnone => ?_, fun line text hleft => ?_⟩
  · by_cases hname : rule.name = chainedRule.name
    swap
    · have hsame := rule_declines rule hmem hname t ctx v hv hnone
      exact ⟨iff_of_true hsame fun h => hname h.1, fun _ h => absurd h hname⟩
    obtain rfl := eq_chainedRule hmem hname
    have hstray : ∀ added, StrayImport ctx t added →
        v.context = { ctx with imports := ctx.imports ++ [added] } := by
      intro added hadded
      have hcall := hv.symm.trans hadded.chainedPageCall
      cases hcall
      rfl
    refine ⟨⟨?_, fun h => ?_⟩, fun added _ => hstray added⟩
    · rintro hsame ⟨-, added, hadded⟩
      exact hlonger _ _ (congrArg Context.imports ((hstray added hadded).symm.trans hsame))
    · rcases chainedPageCall_declined hv hnone with ⟨added, hadded, -⟩ | hsame
      · exact absurd ⟨hname, added, hadded⟩ h
      · exact hsame
  · obtain ⟨tried, hstatement, htried⟩ := statement_of_leftOver hleft line
    obtain ⟨noted, hnoted⟩ : ∃ noted, leftOver line (trim text) tried =
        (if tried.inMethod then ["// TODO: " ++ trim text] else [],
          { tried with diagnostics := tried.diagnostics ++ [noted] }) := by
      rw [leftOver]
      split_ifs
      · exact ⟨_, rfl⟩
      · exact ⟨_, rfl⟩
    rw [hstatement, hnoted]
    rcases htried with ⟨added, hsingle, hstray, rfl⟩ | ⟨rfl, hnone⟩
    · refine ⟨_, noted, rfl, iff_of_false (fun h => ?_) fun h => h ⟨hsingle, added, hstray⟩, ?_⟩
      · exact hlonger _ _ (congrArg Context.imports h)
      · intro added' _ hstray'
        rw [hstray.unique hstray']
    · refine ⟨_, noted, rfl, iff_of_true rfl ?_, fun added hsingle hstray => ?_⟩
      · rintro ⟨hsingle, added, hstray⟩
        exact hnone added hsingle hstray
      · exact absurd hstray (hnone added hsingle)

/-- A return of a sum is declined by all rules, and leaves nothing but a diagnostic. -/
theorem declined_without_trace_iff_sum :
    let t : Text := "return a + b;"
    let rule : Rule := ⟨"return", .passthrough, returns⟩
    let ctx : Context := { inMethod := true }
    (∃ v, rule ∈ rules ∧ rule.apply t ctx = .ok v ∧ v.lines = none ∧ v.context = ctx) ∧
    LeftOver t ctx ∧ ∃ after noted, statement 1 t ctx = .ok (["// TODO: return a + b;".toList], after) ∧
      after = { ctx with diagnostics := [noted] } := by
  intro t rule ctx
  have hmem : rule ∈ rules := List.mem_of_getElem? (i := 12) rfl
  obtain ⟨v, happly, hlines⟩ : ∃ v, rule.apply t ctx = .ok v ∧ v.lines = none :=
    exists_of_any_toOption (by decide +kernel)
  have hleft : LeftOver t ctx := by
    intro _
    obtain ⟨⟨_ | found, after⟩, hrules, hnone⟩ : ∃ r, applyRules (trim t) ctx rules = .ok r ∧
        r.1.isNone = true := exists_of_any_toOption (by decide +kernel)
    · exact ⟨after, hrules⟩
    · cases hnone
  have hstray : ∀ added, ¬StrayImport ctx t added := by
    rintro added ⟨className, name, arguments, hfound, -⟩
    have hnone : chainedCall? t = none := by decide +kernel
    rw [hnone] at hfound
    cases hfound
  obtain ⟨after, noted, hstatement, hiff, -⟩ := (declined_without_trace_iff ctx).2 1 t hleft
  refine ⟨⟨v, hmem, happly, hlines, ?_⟩, hleft, after, noted, hstatement, hiff.2 ?_⟩
  · refine ((declined_without_trace_iff ctx).1 rule hmem t v happly hlines).1.2 ?_
    rintro ⟨-, added, hadded⟩
    exact hstray added hadded
  · rintro ⟨-, added, hadded⟩
    exact hstray added hadded

/-- A comment with a parenthesis in the arguments of a call on a new page object: the rule declines,
the statement is kept as a comment, and the import of the class stays. -/
theorem import_left_behind :
    let ctx : Context :=
      { project := some (({} : Project).add (some "a/LoginPage")
          { name := "LoginPage", roles := { isPageObject := true } })
        module := some "b/A"
        inMethod := true }
    let t : Text := "new LoginPage(driver).open(x /* :) */);"
    let added : Text := "import \x7b LoginPage \x7d from '../a/LoginPage';"
    chainedRule ∈ rules ∧ (∃ v, chainedRule.apply t ctx = .ok v ∧ v.lines = none ∧ v.context ≠ ctx ∧
      v.context.imports = [added]) ∧
    ∃ r, statement 1 t ctx = .ok r ∧ r.1 = ["// TODO: " ++ t] ∧ r.2.imports = [added] := by
  intro ctx t added
  exact ⟨List.mem_of_getElem? (i := 10) rfl, exists_of_any_toOption (by decide +kernel),
    exists_of_any_toOption (by decide +kernel)⟩

end Restage.Conversion
