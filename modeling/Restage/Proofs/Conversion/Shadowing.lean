import Restage.Proofs.Conversion.Setting
import Restage.Proofs.Conversion.ExpressionSites

/-!
# Names in scope and element fields

An element field is referred to by its bare name or by `this.` and the name.  A parameter or a local
variable may have the same name, and then the bare name should mean the variable.  But `element?`
never looks at the scope: whether a bare name becomes an accessor call depends on the element fields
and on whether there is an object to refer to, and on nothing else.

To say that a name is not taken for a field, compare a context with the one in which no field has
the name (`Context.hide`).  Where the field makes no difference to the lookup
(`Context.Indifferent`), all rules, headers and expressions give the same with and without it
(`rule_hide`, `statement_hide`).  Where it does, the texts `x.getText()` and `x.waitForEnabled();`
have two different counterparts.  So the names in scope shadow the fields exactly if it makes no
difference for any of them (`shadowed_in_scope_iff`).
-/

namespace Restage.Conversion

open Text Java List Option Context Verdict

variable (t name raw : Text)

namespace Context

/-- The context in which a name is not that of an element field. -/
def hide (ctx : Context) (x : Text) : Context := { ctx with accessors := ctx.accessors.filter (· ≠ x) }

/-- A name that is not that of an element field, or anything where there is no object to refer
to. -/
def Indifferent (ctx : Context) (x : Text) : Prop := x ∉ ctx.accessors ∨ ctx.selfRef = none

variable {ctx after : Context} {x : Text}

lemma hide_eq_self (hx : x ∉ ctx.accessors) : ctx.hide x = ctx := by
  have hkept : ctx.accessors.filter (· ≠ x) = ctx.accessors := by
    rw [filter_eq_self]
    intro a ha
    have hax : a ≠ x := ne_of_mem_of_not_mem ha hx
    simpa using hax
  rw [hide, hkept]

lemma hide_importClass (name : Text) : (ctx.hide x).importClass name = (ctx.importClass name).hide x := by
  have himport : (ctx.hide x).importOf? name = ctx.importOf? name := rfl
  rw [importClass, importClass, himport]
  cases ctx.importOf? name <;> rfl

lemma Indifferent.of_setting (h : ctx.Indifferent x) (hset : after.setting = ctx.setting) :
    after.Indifferent x := by
  have haccessors : after.setting.accessors = ctx.setting.accessors := by rw [hset]
  have hself : after.setting.selfRef = ctx.setting.selfRef := by rw [hset]
  exact h.imp (fun hx => haccessors ▸ hx) fun hnone => hself.trans hnone

end Context

/-! ## Options and verdicts -/

variable {after after' : Context}

section Hides

variable {ctx : Context} {x : Text}

/-- Two options say the same, the second one with a name hidden. -/
def Hides (x : Text) (o o' : Option (Text × Context)) : Prop :=
  o' = o.map fun said => (said.1, said.2.hide x)

namespace Hides

lemma none : Hides x none none := rfl

lemma some {line : Text} (h : after' = after.hide x) :
    Hides x (some (line, after)) (some (line, after')) := by
  rw [h]
  rfl

lemma bind {β : Type} {o : Option β} {f g : β → Option (Text × Context)} (h : ∀ b, Hides x (f b) (g b)) :
    Hides x (o.bind f) (o.bind g) := by
  cases o with
  | none => rfl
  | some b => exact h b

lemma map {β : Type} {o : Option β} {f g : β → Text × Context} (h : ∀ b, g b = ((f b).1, (f b).2.hide x)) :
    Hides x (o.map f) (o.map g) := by
  cases o with
  | none => rfl
  | some b => exact congrArg Option.some (h b)

lemma ite {p : Prop} [Decidable p] {o o' u u' : Option (Text × Context)} (h : Hides x o o')
    (hu : Hides x u u') : Hides x (if p then o else u) (if p then o' else u') := by
  split_ifs
  · exact h
  · exact hu

lemma or {o o' u u' : Option (Text × Context)} (h : Hides x o o') (hu : Hides x u u') :
    Hides x (o.or u) (o'.or u') := by
  subst h hu
  cases o <;> rfl

end Hides

namespace Verdict

/-- A verdict with a name hidden in its context. -/
def hide (v : Verdict) (x : Text) : Verdict := { v with context := v.context.hide x }

/-- Two rules say the same, the second one with a name hidden. -/
def Hides (x : Text) (r r' : Except Fault Verdict) : Prop := r' = r.map (·.hide x)

namespace Hides

lemma accept {line : Text} (h : after' = after.hide x) :
    Hides x (accept line after) (accept line after') := by
  rw [h]
  rfl

lemma decline (h : after' = after.hide x) : Hides x (decline after) (decline after') := by
  rw [h]
  rfl

lemma ofOption {o o' : Option (Text × Context)} (hnone : after' = after.hide x)
    (h : Conversion.Hides x o o') : Hides x (ofOption after o) (ofOption after' o') := by
  subst h hnone
  cases o <;> rfl

lemma bind {β : Type} {r : Except Fault β} {f g : β → Except Fault Verdict} (h : ∀ b, Hides x (f b) (g b)) :
    Hides x (r >>= f) (r >>= g) := by
  cases r with
  | error fault => rfl
  | ok b => exact h b

end Hides

end Verdict

end Hides

/-! ## The rules -/

section Rules

variable {ctx : Context} {x : Text}

lemma accessorCall?_hide (h : ctx.Indifferent x) : accessorCall? (ctx.hide x) = accessorCall? ctx := by
  rcases h with hx | hself
  · rw [hide_eq_self hx]
  · have hself' : (ctx.hide x).selfRef = none := hself
    funext name
    rw [accessorCall?, accessorCall?, hself, hself']
    simp

lemma element?_hide (h : ctx.Indifferent x) : element? (ctx.hide x) = element? ctx := by
  funext t
  rw [element?, accessorCall?_hide h]
  rfl

lemma expression_hide (h : ctx.Indifferent x) : expression (ctx.hide x) = expression ctx := by
  have hread : convertRead? (ctx.hide x) = convertRead? ctx := by
    funext before t
    rw [convertRead?, convertRead?, element?_hide h]
  funext t
  rw [expression, hread]
  rfl

lemma convertedArguments_hide (h : ctx.Indifferent x) :
    convertedArguments (ctx.hide x) = convertedArguments ctx := by
  funext t
  rw [convertedArguments, convertedArguments, expression_hide h]

variable (h : ctx.Indifferent x) (t : Text) (soft : Bool) (claim : Claim)
include h

lemma elementWait_hide : Verdict.Hides x (elementWait t ctx) (elementWait t (ctx.hide x)) := by
  rw [elementWait, elementWait, element?_hide h]
  split
  · exact .decline rfl
  · split
    · exact .bind fun _ => .accept rfl
    · exact .decline rfl

lemma driverWait_hide : Verdict.Hides x (driverWait t ctx) (driverWait t (ctx.hide x)) := by
  rw [driverWait, driverWait, element?_hide h]
  split
  · exact .decline rfl
  · split
    · exact .bind fun _ => .accept rfl
    · exact .decline rfl

omit h in
lemma sleep_hide : Verdict.Hides x (sleep t ctx) (sleep t (ctx.hide x)) := by
  rw [sleep, sleep]
  split
  · exact .decline rfl
  · exact .bind fun _ => .accept rfl

omit h in
lemma convertBefore_hide :
    convertBefore raw (ctx.hide x) = ((convertBefore raw ctx).1, (convertBefore raw ctx).2.hide x) := by
  rw [convertBefore, convertBefore]
  split_ifs
  · rfl
  · rfl
  · split <;> rfl

lemma elementAction_hide : Verdict.Hides x (elementAction t ctx) (elementAction t (ctx.hide x)) := by
  rw [elementAction, elementAction, element?_hide h, convertedArguments_hide h]
  refine .ofOption rfl (.bind fun found => .bind fun _ => ?_)
  rw [convertBefore_hide]
  exact .some rfl

lemma comparison?_hide (negated : Bool) (args : List Text) :
    Hides x (comparison? ctx soft negated args) (comparison? (ctx.hide x) soft negated args) := by
  rcases args with _ | ⟨_, _ | ⟨_, _⟩⟩
  · exact .none
  · exact .none
  · rw [comparison?, comparison?, expression_hide h]
    exact .some rfl

lemma visibility?_hide (condition message : Text) :
    Hides x (visibility? ctx soft claim condition message)
      (visibility? (ctx.hide x) soft claim condition message) := by
  unfold visibility?
  rw [element?_hide h]
  cases claim with
  | isTrue | isFalse => exact .bind fun _ => .bind fun _ => .bind fun _ => .some rfl
  | _ => exact .none

lemma valueTest?_hide (args : List Text) :
    Hides x (valueTest? ctx soft claim args) (valueTest? (ctx.hide x) soft claim args) := by
  cases args with
  | nil => exact .none
  | cons condition rest =>
    rw [valueTest?, valueTest?, expression_hide h]
    exact .or (visibility?_hide h soft claim condition _) (.some rfl)

lemma assertion_hide : Verdict.Hides x (assertion t ctx) (assertion t (ctx.hide x)) := by
  refine .ofOption rfl (.bind fun a => ?_)
  split
  · exact comparison?_hide h _ _ _
  · exact comparison?_hide h _ _ _
  · exact valueTest?_hide h _ _ _

lemma elementAssertion_hide : Verdict.Hides x (elementAssertion t ctx) (elementAssertion t (ctx.hide x)) := by
  rw [elementAssertion, elementAssertion, element?_hide h, convertedArguments_hide h]
  exact .ofOption rfl (.bind fun _ => .bind fun _ => .bind fun _ => .bind fun _ => .some rfl)

lemma log_hide : Verdict.Hides x (log t ctx) (log t (ctx.hide x)) := by
  rw [log, log, expression_hide h]
  exact .ofOption rfl (.bind fun _ => .bind fun _ => .some rfl)

lemma navigate_hide : Verdict.Hides x (navigate t ctx) (navigate t (ctx.hide x)) := by
  rw [navigate, navigate, expression_hide h]
  exact .ofOption rfl (.bind fun _ => .bind fun _ => .bind fun _ => .some rfl)

omit h in
lemma history_hide : Verdict.Hides x (history t ctx) (history t (ctx.hide x)) :=
  .ofOption rfl (.bind fun _ => .bind fun _ => .bind fun _ => .ite (.some rfl) .none)

omit h in
lemma newPageObject_hide : Verdict.Hides x (newPageObject t ctx) (newPageObject t (ctx.hide x)) := by
  refine .ofOption rfl (.bind fun found => .ite (.some ?_) .none)
  rw [hide_importClass]
  rfl

lemma chainedPageCall_hide : Verdict.Hides x (chainedPageCall t ctx) (chainedPageCall t (ctx.hide x)) := by
  rw [chainedPageCall, chainedPageCall]
  split
  · exact .decline rfl
  · rename_i className call _
    have hpage : (ctx.hide x).isPageClass className = ctx.isPageClass className := rfl
    rw [hpage, hide_importClass]
    split_ifs
    · have himported : (ctx.importClass className).Indifferent x :=
        h.of_setting (ctx.setting_importClass className)
      dsimp only
      rw [convertedArguments_hide himported]
      exact .ofOption rfl (.bind fun _ => .some rfl)
    · exact .decline rfl

lemma throw_hide : Verdict.Hides x (throw t ctx) (throw t (ctx.hide x)) := by
  rw [throw, throw, convertedArguments_hide h]
  exact .ofOption rfl <| .bind fun _ => .bind fun _ => .ite (.some (hide_importClass _)) (.some rfl)

omit h in
lemma returns_hide : Verdict.Hides x (returns t ctx) (returns t (ctx.hide x)) :=
  .ofOption rfl <| .bind fun _ => .ite (.some rfl) <| .ite (.some rfl) <| .ite (.some rfl) <|
    .bind fun _ => .ite (.some (hide_importClass _)) .none

omit h in
lemma literalDeclaration_hide :
    Verdict.Hides x (literalDeclaration t ctx) (literalDeclaration t (ctx.hide x)) :=
  .ofOption rfl (.bind fun _ => .ite (.some rfl) .none)

omit h in
lemma otherCall_hide (receiver name : Text) (args : List Text) :
    otherCall (ctx.hide x) receiver name args =
      ((otherCall ctx receiver name args).1, (otherCall ctx receiver name args).2.hide x) := by
  have hproject : (ctx.hide x).project = ctx.project := rfl
  unfold otherCall
  rw [hproject]
  generalize (ctx.project.bind (·.get? receiver)).filter (·.name = receiver) = known
  cases known with
  | none => rfl
  | some c =>
    dsimp only
    rw [hide_importClass]
    rfl

lemma genericCall_hide : Verdict.Hides x (genericCall t ctx) (genericCall t (ctx.hide x)) := by
  rw [genericCall, genericCall, convertedArguments_hide h]
  refine .ofOption rfl (.bind fun _ => .bind fun split => .ite .none (.ite ?_ (.ite .none ?_)))
  · exact .map fun _ => rfl
  · rw [otherCall_hide]
    exact .some rfl

end Rules

section Statements

variable {ctx : Context} {x : Text}

lemma rule_hide : ∀ rule ∈ rules, ∀ t ctx, ctx.Indifferent x →
    Verdict.Hides x (rule.apply t ctx) (rule.apply t (ctx.hide x)) := by
  simp only [rules, forall_mem_cons]
  exact ⟨fun t _ h => elementWait_hide h t, fun t _ h => driverWait_hide h t,
    fun t _ h => elementAction_hide h t, fun t _ _ => sleep_hide t, fun t _ h => assertion_hide h t,
    fun t _ h => elementAssertion_hide h t, fun t _ h => log_hide h t, fun t _ h => navigate_hide h t,
    fun t _ _ => history_hide t, fun t _ _ => newPageObject_hide t, fun t _ h => chainedPageCall_hide h t,
    fun t _ h => throw_hide h t, fun t _ _ => returns_hide t, fun t _ _ => literalDeclaration_hide t,
    fun t _ h => genericCall_hide h t, by simp⟩

lemma applyRules_hide {tried : List Rule} (htried : tried ⊆ rules) (h : ctx.Indifferent x) (t : Text) :
    applyRules t (ctx.hide x) tried = (applyRules t ctx tried).map fun r => (r.1, r.2.hide x) := by
  induction tried generalizing ctx with
  | nil => rfl
  | cons rule rest ih =>
    obtain ⟨hrule, hrest⟩ := cons_subset.1 htried
    have hhide := rule_hide rule hrule t ctx h
    rw [applyRules, applyRules, hhide]
    cases hv : rule.apply t ctx with
    | error fault => rfl
    | ok verdict =>
      have hkept := setting_of_standing (rule_keeps rule hrule t ctx verdict hv)
      obtain ⟨lines, after⟩ := verdict
      cases lines with
      | some lines => rfl
      | none => exact ih hrest (h.of_setting hkept)

lemma leftOver_hide (line : Int) (t : Text) :
    leftOver line t (ctx.hide x) = ((leftOver line t ctx).1, (leftOver line t ctx).2.hide x) := by
  have hmethod : (ctx.hide x).inMethod = ctx.inMethod := rfl
  rw [leftOver, leftOver, hmethod]
  split_ifs <;> rfl

/-- **A statement** is converted in the same way with the name hidden. -/
lemma statement_hide (h : ctx.Indifferent x) (line : Int) (text : Text) :
    statement line text (ctx.hide x) = (statement line text ctx).map fun r => (r.1, r.2.hide x) := by
  rw [statement, statement, applyRules_hide (fun _ hrule => hrule) h]
  split_ifs
  · cases applyRules (trim text) ctx rules with
    | error fault => rfl
    | ok result =>
      obtain ⟨_ | ⟨rule, lines⟩, after⟩ := result
      · exact congrArg Except.ok (leftOver_hide line (trim text))
      · rfl
  · exact congrArg Except.ok (leftOver_hide line (trim text))

/-- **A control header** is converted in the same way with the name hidden. -/
lemma controlHeader?_hide (h : ctx.Indifferent x) (t : Text) :
    Hides x (controlHeader? ctx t) (controlHeader? (ctx.hide x) t) := by
  have hcondition : conditionHeader? (ctx.hide x) t = conditionHeader? ctx t := by
    rw [conditionHeader?, conditionHeader?, expression_hide h]
  rw [controlHeader?, controlHeader?, hcondition]
  split
  · exact .some rfl
  · split
    · rename_i name listed _
      have hdeclared : (ctx.declare name []).Indifferent x := h
      have hexpression := expression_hide hdeclared
      dsimp only
      rw [show (ctx.hide x).declare name [] = (ctx.declare name []).hide x from rfl, hexpression]
      exact .some rfl
    · exact .map fun _ => rfl

end Statements

/-! ## Where a name in scope is taken for a field -/

/-- A name that is qualified as that of a field of the object. -/
def qualified (x : Text) : Text := "this." ++ x

namespace Context

variable (ctx : Context) (x : Text)

/-- Expressions in which a name is not qualified have the same counterparts as if no element field
had it. -/
def ShadowsInExpressions : Prop :=
  ∀ t, ¬(qualified x <:+: t) → expression (ctx.hide x) t = expression ctx t

/-- The same of control headers. -/
def ShadowsInHeaders : Prop :=
  ∀ t, ¬(qualified x <:+: t) → Hides x (controlHeader? ctx t) (controlHeader? (ctx.hide x) t)

/-- The same of statements. -/
def ShadowsInStatements : Prop :=
  ∀ line t, ¬(qualified x <:+: t) →
    statement line t (ctx.hide x) = (statement line t ctx).map fun r => (r.1, r.2.hide x)

end Context

section Field

variable {ctx : Context} {x : Text}

lemma not_qualified_infix (hname : isName x = true) {before after : Text} (hbefore : '.' ∉ before)
    (hafter : '.' ∉ after) (hs : 's' ∉ after) : ¬(qualified x <:+: before ++ (x ++ '.' :: after)) := by
  rintro ⟨p, q, hpq⟩
  have hx : '.' ∉ x := not_mem_of_isName hname (by decide)
  have hcut : (p ++ "this") ++ '.' :: (x ++ q) = (before ++ x) ++ '.' :: after := by
    rw [append_assoc before, ← hpq]
    simp [qualified]
  have hp : '.' ∉ p ++ "this" := by
    have hcount := congrArg (count '.') hcut
    simp only [count_append, count_cons_self, count_eq_zero.2 hbefore, count_eq_zero.2 hafter] at hcount
    refine count_eq_zero.1 ?_
    rw [count_append]
    omega
  have hfirst := cutFirst?_append hp (x ++ q)
  rw [hcut, cutFirst?_append (by simp [hbefore, hx])] at hfirst
  obtain ⟨hends, rfl⟩ := Prod.mk.inj (some.inj hfirst)
  obtain ⟨c, r, rfl, -⟩ := exists_cons_of_isName hname
  have hlast : (c :: r).getLast? = some 's' := by
    have hgetLast := congrArg getLast? hends
    simpa [getLast?_cons] using hgetLast
  exact hs (mem_append_left _ (mem_of_getLast? hlast))

/-! ### Expressions and headers -/

lemma exchangeAll_of_whole {reader : Option Char → Text → Option (Text × Text)} {t new : Text} (hne : t ≠ [])
    (h : reader none t = some (new, [])) : exchangeAll reader t = new := by
  obtain ⟨c, r, rfl⟩ := exists_cons_of_ne_nil hne
  have hskip := scanFrom_skip reader (some c) r []
  rw [append_nil] at hskip
  rw [exchangeAll_eq_scanFrom, scanFrom, h]
  dsimp only
  rw [length_nil, Nat.sub_zero, hskip, scanFrom]
  simp

lemma not_call_infix {call before after : Text} (hbefore : '(' ∉ before)
    (hafter : '(' ∉ after) (hends : call.getLast? ≠ none ∧ call.getLast? ≠ before.getLast?) (rest : Text) :
    ¬(call ++ '(' :: rest <:+: before ++ '(' :: after) := by
  rintro ⟨p, q, hpq⟩
  have hcut : (p ++ call) ++ '(' :: (rest ++ q) = before ++ '(' :: after := by
    rw [← hpq]
    simp
  have hp : '(' ∉ p ++ call := by
    have hcount := congrArg (count '(') hcut
    simp only [count_append, count_cons_self, count_eq_zero.2 hbefore, count_eq_zero.2 hafter] at hcount
    refine count_eq_zero.1 ?_
    rw [count_append]
    omega
  have hfirst := cutFirst?_append hp (rest ++ q)
  rw [hcut, cutFirst?_append hbefore] at hfirst
  obtain ⟨rfl, -⟩ := Prod.mk.inj (some.inj hfirst)
  rw [getLast?_append] at hends
  cases hlast : call.getLast? with
  | none => exact hends.1 hlast
  | some c => exact hends.2 (by rw [hlast]; rfl)

lemma accessorCall?_hide_self (ctx : Context) (x : Text) : accessorCall? (ctx.hide x) x = none := by
  have hnot : ¬(ctx.hide x).accessors.contains x = true := by simp [Context.hide]
  rw [accessorCall?, if_neg hnot]

lemma count_le_expression (ctx : Context) (t : Text) :
    (exchangeAll (convertRead? ctx) t).count 'w' ≤ (expression ctx t).count 'w' := by
  have htitle : (".getTitle()" : Text).count 'w' = 0 := by decide
  have haddress : (".getCurrentUrl()" : Text).count 'w' = 0 := by decide
  rw [expression]
  calc (exchangeAll (convertRead? ctx) t).count 'w'
      ≤ _ := count_le_exchangeAll_convertQuery? (.inl rfl) htitle _ _
    _ ≤ _ := count_le_exchangeAll_convertQuery? (.inl rfl) haddress _ _
    _ ≤ _ := count_le_exchangeAll_convertEquals? _

lemma expression_eq_of_no_site {t : Text} (hread : exchangeAll (convertRead? ctx) t = t)
    (hquery : ∀ query ∈ driverQueries, ¬QuerySite query t) (hequals : ¬EqualsSite t) :
    expression ctx t = t := by
  rw [expression, hread, exchangeAll_convertQuery?_eq_self _ (hquery _ (by decide)),
    exchangeAll_convertQuery?_eq_self _ (hquery _ (by decide)), exchangeAll_convertEquals?_eq_self hequals]

lemma expression_getText (hname : isName x = true) (ctx : Context) :
    expression ctx (x ++ ".getText()") = x ++ ".getText()" ↔ accessorCall? ctx x = none := by
  obtain ⟨t, ht⟩ : ∃ t, t = x ++ ".getText()" := ⟨_, rfl⟩
  have htext : t = x ++ '.' :: ("getText" ++ '(' :: ([] ++ [')'])) := ht
  have hne : t ≠ [] := by simp [ht]
  have hflat : ∀ c ∈ ([] : Text), isParenthesis c = false := by simp
  have hnone : ∀ c ∈ (none : Option Char), isDotted c = false := by simp
  have haction : "getText".toList ∈ reads.map (·.1) := by decide
  rw [← ht]
  constructor
  · -- The exchange of the read would add a letter.
    intro hsame
    by_contra hknown
    have hfield : FieldRead x t := ⟨x, _, [], htext, .inl rfl, hname, haction, hflat⟩
    obtain ⟨new, hnew, hcount⟩ := convertRead?_append hnone hfield (isSome_iff_ne_none.2 hknown) []
    rw [append_nil] at hnew
    have hmore := count_le_expression ctx t
    rw [exchangeAll_of_whole hne hnew, hsame] at hmore
    omega
  · intro hknown
    have hcall : ∀ call : Text, call.getLast? ≠ none ∧ call.getLast? ≠ some 't' → ∀ rest,
        ¬(call ++ '(' :: rest <:+: t) := by
      intro call hcall rest
      have hsplit : t = (x ++ ".getText") ++ '(' :: [')'] := by simp [ht]
      have hx : '(' ∉ x := not_mem_of_isName hname (by decide)
      rw [hsplit]
      exact not_call_infix (by simp [hx]) (by decide) ⟨hcall.1, by simpa using hcall.2⟩ rest
    refine expression_eq_of_no_site (exchangeAll_of_whole hne ?_) ?_ ?_
    · have hread := read?_append hnone hname (.inl rfl) haction hflat []
      rw [convertRead?, htext, nil_append, ← nil_append [')'], hread, map_some]
      dsimp only
      rw [element?_field hname (.inl rfl), hknown]
      simp [consumed]
    · rintro query hmem ⟨reference, -, hinfix⟩
      have hfound := (suffix_append reference query).isInfix.trans hinfix
      rw [driverQueries, mem_cons, mem_singleton] at hmem
      rcases hmem with rfl | rfl
      · exact hcall ".getTitle" (by decide) ")" hfound
      · exact hcall ".getCurrentUrl" (by decide) ")" hfound
    · rintro ⟨receiver, argument, -, -, hinfix⟩
      refine hcall ".equals" (by decide) (argument ++ ")") (IsInfix.trans ⟨receiver, [], ?_⟩ hinfix)
      simp [equalsCall]

lemma controlHeader?_if (ctx : Context) {condition : Text} (hline : onOneLine condition = true) :
    controlHeader? ctx ("if (" ++ (condition ++ ") \x7b")) =
      some ("if (" ++ expression ctx condition ++ ") \x7b", ctx) := by
  have hkeyword : conditionKeyword? ("if (" ++ (condition ++ ") \x7b")) =
      some ("if".toList, condition ++ ") \x7b") := rfl
  have hlines : dropFinalNewline (condition ++ ") \x7b") = condition ++ ") \x7b" := by
    simp [dropFinalNewline, dropFinal?]
  have hbrace : dropFinal? '\x7b' (condition ++ ") \x7b") = some (condition ++ ") ") :=
    dropFinal?_eq_some_iff.2 (by simp)
  have htrim : trimRight (condition ++ ") ") = condition ++ ")" := by
    have hblank : isBlank ' ' = true ∧ isBlank ')' = false := by decide
    simp [trimRight, hblank]
  have hparenthesis : dropFinal? ')' (condition ++ ")") = some condition := dropFinal?_eq_some_iff.2 rfl
  have hblock : beforeBlock? (condition ++ ") \x7b") = some condition := by
    rw [beforeBlock?, hlines, hbrace, bind_some, htrim, hparenthesis]
  have hheader : conditionHeader? ctx ("if (" ++ (condition ++ ") \x7b")) =
      some ("if (" ++ expression ctx condition ++ ") \x7b") := by
    rw [conditionHeader?, hkeyword, bind_eq_bind, bind_some]
    dsimp only
    rw [hblock, filter_some, if_pos hline]
    rfl
  rw [controlHeader?, hheader]

/-! ### Statements -/

/-- A wait for an element field that is recorded without a timeout. -/
def untimedWait (x : Text) : Action := { action := "wait", target := some x }

lemma cuts_append {c : Char} {a : Text} (h : c ∉ a) (b : Text) :
    ∃ later, cuts c (a ++ c :: b) = (a, b) :: later := by
  induction a with
  | nil => exact ⟨_, by rw [nil_append, cuts, if_pos rfl]⟩
  | cons d a ih =>
    obtain ⟨hd, ha⟩ := not_or.1 (mt mem_cons.2 h)
    obtain ⟨later, hlater⟩ := ih ha
    rw [cons_append, cuts, if_neg (Ne.symm hd), hlater]
    exact ⟨_, rfl⟩

lemma isSingle_append {word : Text} (hword : ∀ c ∈ word, isWord c = true) (rest : Text) :
    isSingle (word ++ rest) = isSingle rest := by
  induction word with
  | nil => rfl
  | cons c word ih =>
    obtain ⟨hc, hrest⟩ := forall_mem_cons.1 hword
    have hcode : isQuote c = false ∧ isOpening c = false ∧ isClosing c = false ∧ c ≠ ';' := by
      have hmarks : ∀ d, isWord d = false → c ≠ d := by
        rintro d hd rfl
        rw [hc] at hd
        cases hd
      have hbrackets : ∀ d ∈ ("\"'\x60([\x7b)]\x7d;" : Text), c ≠ d := by
        have hall : (("\"'\x60([\x7b)]\x7d;" : Text).all fun d => !isWord d) = true := by decide
        intro d hd
        exact hmarks d (by simpa using all_eq_true.1 hall d hd)
      simpa [isQuote, isOpening, isClosing, and_assoc] using hbrackets
    rw [← ih hrest, isSingle, mask, cons_append, maskFrom_cons, Quoting.step, Quoting.shown,
      hcode.1]
    rw [singleFrom, hcode.2.1, hcode.2.2.1, if_neg (by simp), if_neg (by simp), if_neg (by simp [hcode.2.2.2])]
    rfl

lemma receiverCall?_wait (hname : isName x = true) :
    receiverCall? (elementWaits.map (·.1)) flatStatement? (x ++ ".waitForEnabled();") =
      some ⟨x, "waitForEnabled", []⟩ := by
  have hdot : '.' ∉ x := not_mem_of_isName hname (by decide)
  have hline : onOneLine x = true := by
    have hnone : '\n' ∉ x := not_mem_of_isName hname (by decide)
    simp [onOneLine, hnone]
  have hne : x.isEmpty = false := by
    obtain ⟨c, r, rfl, -⟩ := exists_cons_of_isName hname
    rfl
  have hcalled : calledName? (elementWaits.map (·.1)) "waitForEnabled();" = some ("waitForEnabled".toList, ");".toList) := by
    decide
  obtain ⟨later, hlater⟩ := cuts_append hdot "waitForEnabled();"
  have hcuts : cuts '.' (x ++ ".waitForEnabled();") = (x, "waitForEnabled();".toList) :: later := hlater
  rw [receiverCall?, hcuts, findSome?_cons]
  dsimp only
  rw [hne, hline]
  rfl

/-- How often an untimed wait for a field has been recorded. -/
def waitsFor (x : Text) (ctx : Context) : Nat := ctx.actions.count (untimedWait x)

lemma waitsFor_record {action : Text} {value : Option Text} (h : action ≠ "wait".toList ∨ value ≠ none)
    (target : Option Text) (ctx : Context) : waitsFor x (ctx.record action target value) = waitsFor x ctx := by
  have hother : ¬({ action, target, value } : Action) = untimedWait x := by
    rintro heq
    cases heq
    simp at h
  rw [waitsFor, record, count_append, count_singleton, if_neg (by simpa using hother)]
  rfl

@[simp] lemma waitsFor_importClass (ctx : Context) :
    waitsFor x (ctx.importClass name) = waitsFor x ctx := by
  rw [importClass]
  split <;> rfl

@[simp] lemma waitsFor_declare (type : Text) (ctx : Context) :
    waitsFor x (ctx.declare name type) = waitsFor x ctx := rfl

lemma actionCall_ne_wait (action : Text) (args : List Text) :
    (actionCall action args).1 ≠ "wait".toList := by
  have hall : ∀ method ∈ elementActions.map (·.2), method ≠ "wait".toList := by decide
  have hpress : "press".toList ≠ "wait".toList := by decide
  have hmethod : (Table.get? elementActions action).getD [] ≠ "wait".toList := by
    cases hget : Table.get? elementActions action with
    | none => decide
    | some method => exact hall _ (Lookup.mem_of_table_get? hget)
  unfold actionCall
  split_ifs
  · exact hmethod
  · split
    · split
      · exact hpress
      · exact hmethod
    · exact hmethod

lemma waitsFor_convertBefore (ctx : Context) :
    waitsFor x (convertBefore raw ctx).2 = waitsFor x ctx := by
  rw [convertBefore]
  split_ifs
  · rfl
  · rfl
  · split <;> rfl

lemma assertion_waitsFor (ctx : Context) : Verdict.Keeps (waitsFor x) ctx (assertion t ctx) := by
  have hrecord : ∀ target value, waitsFor x (ctx.record "assert" target value) = waitsFor x ctx :=
    fun target _ => waitsFor_record (.inl (by decide)) target ctx
  have hcomparison : ∀ soft negated args,
      Keeps (waitsFor x) ctx (comparison? ctx soft negated args) := by
    rintro _ _ (_ | ⟨_, _ | ⟨_, _⟩⟩)
    · exact .none
    · exact .none
    · exact .some (hrecord _ _)
  have hvisibility : ∀ soft claim condition message,
      Keeps (waitsFor x) ctx (visibility? ctx soft claim condition message) := by
    intro soft claim condition message
    cases claim with
    | isTrue | isFalse => exact .bind fun _ _ => .bind fun _ _ => .some (hrecord _ _)
    | _ => exact .none
  refine Ensures.ofOption rfl (.bind fun a _ => ?_)
  split
  · exact hcomparison _ _ _
  · exact hcomparison _ _ _
  · cases splitArguments a.arguments with
    | nil => exact .none
    | cons => exact .or (hvisibility _ _ _ _) (.some (hrecord _ _))

lemma rule_waitsFor (x : Text) :
    ∀ rule ∈ rules.tail, ∀ t ctx, Verdict.Keeps (waitsFor x) ctx (rule.apply t ctx) := by
  have hrecord : ∀ {action : Text} (value target : Option Text) (ctx : Context), action ≠ "wait".toList →
      waitsFor x (ctx.record action target value) = waitsFor x ctx :=
    fun value target ctx h => waitsFor_record (.inl h) target ctx
  simp only [rules, tail_cons, forall_mem_cons]
  refine ⟨fun t ctx => ?_, fun t ctx => ?_, fun t ctx => ?_, fun t ctx => assertion_waitsFor t ctx, fun t ctx => ?_,
    fun t ctx => ?_, fun t ctx => ?_, fun t ctx => ?_, fun t ctx => ?_, fun t ctx => ?_, fun t ctx => ?_,
    fun t ctx => ?_, fun t ctx => ?_, fun t ctx => ?_, by simp⟩
  · rw [driverWait]
    split
    · exact Ensures.decline rfl
    · split
      · exact Ensures.bind fun timeout => .accept (waitsFor_record (.inr (by simp)) _ _)
      · exact Ensures.decline rfl
  · refine Ensures.ofOption rfl (.bind fun found _ => .bind fun _ _ => .some ?_)
    exact (hrecord _ _ _ (actionCall_ne_wait _ _)).trans (waitsFor_convertBefore _ _)
  · rw [sleep]
    split
    · exact Ensures.decline rfl
    · exact Ensures.bind fun duration => .accept (hrecord _ _ _ (by decide))
  · exact Ensures.ofOption rfl <|
      .bind fun _ _ => .bind fun _ _ => .bind fun _ _ => .bind fun _ _ => .some (hrecord _ _ _ (by decide))
  · exact Ensures.ofOption rfl <| .bind fun _ _ => .bind fun _ _ => .some rfl
  · exact Ensures.ofOption rfl <|
      .bind fun _ _ => .bind fun _ _ => .bind fun _ _ => .some (hrecord _ _ _ (by decide))
  · have hmoves : ∀ move ∈ historyMoves, move.2 ≠ "wait".toList := by decide
    refine Ensures.ofOption rfl <|
      .bind fun _ _ => .bind fun _ hmove => .bind fun _ _ => .ite (fun _ => .some (hrecord _ _ _ ?_)) fun _ => .none
    obtain ⟨move, hmem, hread⟩ := exists_of_findSome?_eq_some hmove
    obtain ⟨_, -, rfl⟩ := map_eq_some_iff.1 hread
    exact hmoves move hmem
  · exact Ensures.ofOption rfl <| .bind fun _ _ => .ite (fun _ => .some (by simp)) fun _ => .none
  · rw [chainedPageCall]
    split
    · exact Ensures.decline rfl
    · split_ifs
      · exact Ensures.ofOption (by simp) (.bind fun _ _ => .some (by simp))
      · exact Ensures.decline rfl
  · exact Ensures.ofOption rfl <|
      .bind fun _ _ => .bind fun _ _ => .ite (fun _ => .some (by simp)) fun _ => .some rfl
  · refine Ensures.ofOption rfl (.bind fun value _ => ?_)
    split_ifs
    · exact .some rfl
    · exact .some rfl
    · exact .some rfl
    · exact .bind fun _ _ => .ite (fun _ => .some (by simp)) fun _ => .none
  · exact Ensures.ofOption rfl <| .bind fun _ _ => .ite (fun _ => .some (by simp)) fun _ => .none
  · refine Ensures.ofOption rfl (.bind fun _ _ => .bind fun _ _ => ?_)
    dsimp only
    split_ifs
    · exact .none
    · exact .map fun _ _ => rfl
    · exact .none
    · exact .some ((hrecord _ _ _ (by decide)).trans (by split <;> simp))

/-- A wait for a field is left to the other rules exactly if the field is not known. -/
lemma applyRules_wait (hname : isName x = true) (ctx : Context) :
    applyRules (x ++ ".waitForEnabled();") ctx rules =
      (accessorCall? ctx x).elim (applyRules (x ++ ".waitForEnabled();") ctx rules.tail) fun element =>
        .ok (some (⟨"element_wait", .wait, elementWait⟩, [waitLine element (.expectation "toBeEnabled") none]),
          ctx.record "wait" (some x)) := by
  have hrules : rules = ⟨"element_wait", .wait, elementWait⟩ :: rules.tail := rfl
  have hsame : elementName x = x := by
    rw [elementName, trim_of_dotted (isDotted_of_mem_target hname (.inl rfl)), accessorName?_field hname (.inl rfl)]
    rfl
  have htable : Table.get? elementWaits "waitForEnabled" = some (.expectation "toBeEnabled") := by decide
  rw [hrules, applyRules]
  dsimp only
  rw [elementWait, receiverCall?_wait hname]
  dsimp only
  rw [element?_field hname (.inl rfl), htable, hsame]
  cases accessorCall? ctx x <;> rfl

lemma statement_wait (hname : isName x = true) (line : Int) (ctx : Context) :
    statement line (x ++ ".waitForEnabled();") ctx =
      (applyRules (x ++ ".waitForEnabled();") ctx rules).map fun r =>
        r.1.elim (leftOver line (x ++ ".waitForEnabled();") r.2) fun accepted => (accepted.2, r.2) := by
  have htrim : trim (x ++ ".waitForEnabled();") = x ++ ".waitForEnabled();" := by
    have hsemicolon : isBlank ';' = false := by decide
    refine trim_eq_self ?_ (by simp [hsemicolon])
    obtain ⟨c, r, rfl, hc, -⟩ := exists_cons_of_isName hname
    rintro _ ⟨⟩
    exact isBlank_eq_false_of_isWord (isWord_of_isNameStart hc)
  have hsingle : isSingle (x ++ ".waitForEnabled();") = true := by
    rw [isSingle_append (isWord_of_mem_name hname)]
    decide
  rw [statement, htrim, if_pos hsingle]
  cases applyRules (x ++ ".waitForEnabled();") ctx rules with
  | error fault => rfl
  | ok result =>
    obtain ⟨_ | _, _⟩ := result
    · rfl
    · rfl

lemma waitsFor_leftOver (line : Int) (t : Text) (ctx : Context) :
    waitsFor x (leftOver line t ctx).2 = waitsFor x ctx := by
  rw [leftOver]
  split_ifs <;> rfl

lemma waitsFor_statement (hname : isName x = true) (hunknown : accessorCall? ctx x = none) {line : Int}
    {lines : List Text} (h : statement line (x ++ ".waitForEnabled();") ctx = .ok (lines, after)) :
    waitsFor x after = waitsFor x ctx := by
  rw [statement_wait hname, applyRules_wait hname, hunknown] at h
  cases htried : applyRules (x ++ ".waitForEnabled();") ctx rules.tail with
  | error fault => rw [htried] at h; cases h
  | ok result =>
    obtain ⟨found, tried⟩ := result
    have hkept := applyRules_keeps (fun rule hrule => rule_waitsFor x rule hrule _) htried
    rw [htried] at h
    cases found with
    | some accepted => cases h; exact hkept
    | none =>
      have hsame := waitsFor_leftOver (x := x) line (x ++ ".waitForEnabled();") tried
      have hleft : leftOver line (x ++ ".waitForEnabled();") tried = (lines, after) := Except.ok.inj h
      rw [hleft] at hsame
      exact hsame.trans hkept

end Field

/-! ## Along a method -/

/-- A part of a method body: a statement at a source line, or a control header. -/
inductive BodyText where
  | statement (line : Int) (text : Text)
  | header (text : Text)

/-- The context behind a part of a method body. -/
def BodyText.follow (ctx : Context) : BodyText → Except Fault Context
  | .statement line text => (Conversion.statement line text ctx).map (·.2)
  | .header text => .ok (((controlHeader? ctx text).map (·.2)).getD ctx)

section Along

variable {ctx after : Context} {x : Text}

lemma accessorCall?_eq_none_iff : accessorCall? ctx x = none ↔ ctx.Indifferent x := by
  rw [accessorCall?, Indifferent]
  split_ifs with hmem
  · have hx : x ∈ ctx.accessors := by simpa using hmem
    simp [hx]
  · have hx : x ∉ ctx.accessors := by simpa using hmem
    simp [hx]

lemma shadowsInExpressions_iff (hname : isName x = true) : ctx.ShadowsInExpressions x ↔ ctx.Indifferent x := by
  refine ⟨fun h => ?_, fun h t _ => by rw [expression_hide h]⟩
  have hbare : ¬(qualified x <:+: [] ++ (x ++ '.' :: "getText()")) :=
    not_qualified_infix hname (by simp) (by decide) (by decide)
  have hsame := h (x ++ ".getText()") hbare
  rw [(expression_getText hname _).2 (accessorCall?_hide_self ctx x)] at hsame
  exact accessorCall?_eq_none_iff.1 ((expression_getText hname ctx).1 hsame.symm)

lemma shadowsInHeaders_iff (hname : isName x = true) : ctx.ShadowsInHeaders x ↔ ctx.Indifferent x := by
  refine ⟨fun h => ?_, fun h t _ => controlHeader?_hide h t⟩
  have hbare : ¬(qualified x <:+: "if (" ++ (x ++ '.' :: "getText()) \x7b")) :=
    not_qualified_infix hname (by decide) (by decide) (by decide)
  have hline : onOneLine (x ++ ".getText()") = true := by
    have hnone : '\n' ∉ x := not_mem_of_isName hname (by decide)
    simp [onOneLine, hnone]
  have htext : x ++ '.' :: "getText()) \x7b" = x ++ ".getText()" ++ ") \x7b" := by simp
  have hsame := h _ hbare
  rw [htext, controlHeader?_if _ hline, controlHeader?_if _ hline] at hsame
  have hheader := (Prod.mk.inj (some.inj hsame)).1
  rw [(expression_getText hname _).2 (accessorCall?_hide_self ctx x)] at hheader
  have hexpression := append_cancel_left (append_cancel_right hheader)
  exact accessorCall?_eq_none_iff.1 ((expression_getText hname ctx).1 hexpression.symm)

lemma shadowsInStatements_iff (hname : isName x = true) : ctx.ShadowsInStatements x ↔ ctx.Indifferent x := by
  refine ⟨fun h => ?_, fun h line t _ => statement_hide h line t⟩
  have hbare : ¬(qualified x <:+: [] ++ (x ++ '.' :: "waitForEnabled();")) :=
    not_qualified_infix hname (by simp) (by decide) (by decide)
  have hsame := h 0 (x ++ ".waitForEnabled();") hbare
  rw [← accessorCall?_eq_none_iff]
  cases hknown : accessorCall? ctx x with
  | none => rfl
  | some element =>
    -- The wait is recorded with the field, and no rule records it without.
    rw [statement_wait hname 0 ctx, applyRules_wait hname ctx, hknown] at hsame
    have hkept : waitsFor x ((ctx.record "wait" (some x)).hide x) = waitsFor x (ctx.hide x) :=
      waitsFor_statement hname (accessorCall?_hide_self ctx x) hsame
    have hmore : waitsFor x ((ctx.record "wait" (some x)).hide x) = waitsFor x ctx + 1 := by
      simp [waitsFor, record, Context.hide, untimedWait]
    have hhide : waitsFor x (ctx.hide x) = waitsFor x ctx := rfl
    omega

lemma setting_follow {part : BodyText} (h : part.follow ctx = .ok after) : after.setting = ctx.setting := by
  cases part with
  | statement line text =>
    rw [BodyText.follow] at h
    cases hstatement : statement line text ctx with
    | error fault => rw [hstatement] at h; cases h
    | ok result =>
      rw [hstatement] at h
      cases h
      exact statement_setting hstatement
  | header text =>
    rw [BodyText.follow] at h
    cases hheader : controlHeader? ctx text with
    | none => rw [hheader] at h; cases h; rfl
    | some said =>
      rw [hheader] at h
      cases h
      exact controlHeader?_setting hheader

lemma setting_foldlM_follow {parts : List BodyText} (h : parts.foldlM BodyText.follow ctx = .ok after) :
    after.setting = ctx.setting :=
  foldlM_invariant (P := fun c => c.setting = ctx.setting) (fun hc hnext => (setting_follow hnext).trans hc) h rfl

/-- **Names in scope shadow element fields** at a point of a method exactly if there is no object to
refer to or none of them is the name of an element field.  Which it is decides alone, on each of the
ways on which names are looked up and in scope or not, and a name is looked up as if it were
qualified. -/
theorem shadowed_in_scope_iff {parts : List BodyText} (h : parts.foldlM BodyText.follow ctx = .ok after) :
    ((∀ x ∈ after.scope, isName x = true →
        after.ShadowsInExpressions x ∧ after.ShadowsInHeaders x ∧ after.ShadowsInStatements x) ↔
      ctx.selfRef = none ∨ ∀ x ∈ after.scope, isName x = true → x ∉ ctx.accessors) ∧
    ∀ x, isName x = true →
      (after.ShadowsInExpressions x ↔ x ∉ ctx.accessors ∨ ctx.selfRef = none) ∧
      (after.ShadowsInHeaders x ↔ x ∉ ctx.accessors ∨ ctx.selfRef = none) ∧
      (after.ShadowsInStatements x ↔ x ∉ ctx.accessors ∨ ctx.selfRef = none) ∧
      element? after x = element? after (qualified x) := by
  have hset := setting_foldlM_follow h
  have haccessors : after.setting.accessors = ctx.setting.accessors := by rw [hset]
  have hself : after.setting.selfRef = ctx.setting.selfRef := by rw [hset]
  have hindifferent : ∀ x, after.Indifferent x ↔ x ∉ ctx.accessors ∨ ctx.selfRef = none := by
    intro x
    exact or_congr (not_congr (iff_of_eq (congrArg (x ∈ ·) haccessors))) (iff_of_eq (congrArg (· = none) hself))
  have hpaths : ∀ x, isName x = true →
      (after.ShadowsInExpressions x ↔ x ∉ ctx.accessors ∨ ctx.selfRef = none) ∧
      (after.ShadowsInHeaders x ↔ x ∉ ctx.accessors ∨ ctx.selfRef = none) ∧
      (after.ShadowsInStatements x ↔ x ∉ ctx.accessors ∨ ctx.selfRef = none) := by
    intro x hname
    rw [← hindifferent]
    exact ⟨shadowsInExpressions_iff hname, shadowsInHeaders_iff hname, shadowsInStatements_iff hname⟩
  refine ⟨⟨fun hshadows => ?_, fun hfields x hx hname => ?_⟩, fun x hname => ?_⟩
  · by_cases hnone : ctx.selfRef = none
    · exact .inl hnone
    · refine .inr fun x hx hname => ?_
      exact ((hpaths x hname).1.1 (hshadows x hx hname).1).resolve_right hnone
  · have hfree : x ∉ ctx.accessors ∨ ctx.selfRef = none :=
      hfields.elim .inr fun hnot => .inl (hnot x hx hname)
    obtain ⟨hexpressions, hheaders, hstatements⟩ := hpaths x hname
    exact ⟨hexpressions.2 hfree, hheaders.2 hfree, hstatements.2 hfree⟩
  · obtain ⟨hexpressions, hheaders, hstatements⟩ := hpaths x hname
    refine ⟨hexpressions, hheaders, hstatements, ?_⟩
    rw [qualified, element?_field hname (.inl rfl), element?_field hname (.inr rfl)]

/-- A parameter, a loop variable and a local variable that are no element fields, next to one that
is used. -/
theorem shadowed_in_scope_iff_loop :
    let ctx : Context := { inMethod := true, accessors := ["title"], parameters := ["rows"] }
    let parts : List BodyText :=
      [.header "for (String row : rows) \x7b", .statement 2 "String found = title.getText();"]
    let names : List Text := ["rows", "row", "found"]
    ∃ after, parts.foldlM BodyText.follow ctx = .ok after ∧ after.scope = names ∧ ∀ x ∈ names,
      after.ShadowsInExpressions x ∧ after.ShadowsInHeaders x ∧ after.ShadowsInStatements x := by
  intro ctx parts names
  obtain ⟨after, hrun, hscope⟩ : ∃ after, parts.foldlM BodyText.follow ctx = .ok after ∧
      after.scope = names := exists_of_any_toOption (by decide +kernel)
  have hnames : ∀ x ∈ names, isName x = true ∧ x ∉ ctx.accessors := by decide +kernel
  refine ⟨after, hrun, hscope, fun x hx => ?_⟩
  refine (shadowed_in_scope_iff hrun).1.2 (.inr ?_) x (hscope ▸ hx) (hnames x hx).1
  rw [hscope]
  exact fun x hx _ => (hnames x hx).2

/-- A parameter with the name of an element field: what is done with the parameter is done with the
field. -/
theorem parameter_taken_for_field :
    let ctx : Context := { inMethod := true, accessors := ["x"], parameters := ["x"] }
    "x".toList ∈ ctx.scope ∧ ¬(qualified "x" <:+: "x.click();".toList) ∧
    (∃ r, statement 1 "x.click();" ctx = .ok r ∧ r.1 = ["await (await this.x()).click();".toList]) ∧
    (∃ r, statement 1 "x.click();" (ctx.hide "x") = .ok r ∧ r.1 = ["await x.click();".toList]) ∧
    expression ctx "x.getText()" = "await (await this.x()).innerText()".toList ∧
    expression (ctx.hide "x") "x.getText()" = "x.getText()".toList := by
  intro ctx
  exact ⟨by decide, by decide, exists_of_any_toOption (by decide +kernel),
    exists_of_any_toOption (by decide +kernel), by decide +kernel, by decide +kernel⟩

end Along

end Restage.Conversion
