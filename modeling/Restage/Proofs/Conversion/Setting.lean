import Restage.Proofs.Conversion.Calls

/-!
# What a statement leaves alone

Fifteen rules and the control headers are handed a context and give one back.  All that they change
are the three parts that collect something: the imports, the local variables and the recorded
actions.  The rest of a context is what is `standing`.  Ten of the rules and the headers leave the
imports alone, too; what they keep is `lasting`.  A statement that no rule accepts adds a
diagnostic, and nothing else adds one, so what is left without the diagnostics is the same after
every statement as before: the `setting` of the context (`statement_setting`).

The rules are options in the main.  What is to hold of whatever an option says is closed under
binding (`Says`), and so is what is to hold of whatever a rule says (`Ensures`); the frame condition
(`Keeps`) is one such property, and it is read off each rule.
-/

namespace Restage.Conversion

open Text Java Context Verdict

variable {after ctx : Context} {text header : Text} {line : Int} {rule : Rule} {tried : List Rule}
  {found : Option (Rule × List Text)} {lines : List Text} {t : Text}

namespace Context

/-- The part of a context that rules without imports never change. -/
def lasting (ctx : Context) : Context := { ctx with locals := [], actions := [] }

/-- The part of a context that rules read and never change. -/
def standing (ctx : Context) : Context := { ctx with imports := [], locals := [], actions := [] }

/-- The part of a context that statements read and never change. -/
def setting (ctx : Context) : Context :=
  { ctx with imports := [], locals := [], actions := [], diagnostics := [] }

variable (ctx : Context)

@[simp] lemma lasting_record (action : Text) (target value : Option Text) :
    (ctx.record action target value).lasting = ctx.lasting := rfl

@[simp] lemma lasting_declare (name type : Text) : (ctx.declare name type).lasting = ctx.lasting := rfl

lemma standing_of_lasting {ctx : Context} (h : after.lasting = ctx.lasting) :
    after.standing = ctx.standing := by
  have hstanding : { after.lasting with imports := [] } = { ctx.lasting with imports := [] } := by rw [h]
  exact hstanding

@[simp] lemma standing_importClass (name : Text) :
    (ctx.importClass name).standing = ctx.standing := by
  rw [importClass]
  split <;> rfl

@[simp] lemma standing_record (action : Text) (target value : Option Text) :
    (ctx.record action target value).standing = ctx.standing := rfl

@[simp] lemma standing_declare (name type : Text) :
    (ctx.declare name type).standing = ctx.standing := rfl

lemma setting_of_standing {ctx : Context} (h : after.standing = ctx.standing) :
    after.setting = ctx.setting := by
  have hsetting : { after.standing with diagnostics := [] } =
      { ctx.standing with diagnostics := [] } := by rw [h]
  exact hsetting

lemma diagnostics_of_standing {ctx : Context} (h : after.standing = ctx.standing) :
    after.diagnostics = ctx.diagnostics := by
  have hstanding : after.standing.diagnostics = ctx.standing.diagnostics := by rw [h]
  exact hstanding

lemma setting_importClass (name : Text) : (ctx.importClass name).setting = ctx.setting :=
  setting_of_standing (ctx.standing_importClass name)

lemma inMethod_of_setting {ctx : Context} (h : after.setting = ctx.setting) :
    after.inMethod = ctx.inMethod := by
  have hsetting : after.setting.inMethod = ctx.setting.inMethod := by rw [h]
  exact hsetting

end Context

/-! ## Rules as options -/

section Says

variable {P : Text → Context → Prop}

/-- The line and the context that an option holds have a property. -/
def Says (P : Text → Context → Prop) (o : Option (Text × Context)) : Prop :=
  ∀ line after, o = some (line, after) → P line after

namespace Says

lemma none : Says P none := by
  rintro _ _ ⟨⟩

lemma some {line : Text} (h : P line after) : Says P (some (line, after)) := by
  rintro _ _ ⟨⟩
  exact h

lemma bind {β : Type} {o : Option β} {f : β → Option (Text × Context)}
    (h : ∀ b, o = .some b → Says P (f b)) : Says P (o.bind f) := by
  intro line after hbind
  obtain ⟨b, ho, hb⟩ := Option.bind_eq_some_iff.1 hbind
  exact h b ho line after hb

lemma map {β : Type} {o : Option β} {f : β → Text × Context}
    (h : ∀ b, o = .some b → P (f b).1 (f b).2) : Says P (o.map f) := by
  intro line after hmap
  obtain ⟨b, ho, hb⟩ := Option.map_eq_some_iff.1 hmap
  have hsaid := h b ho
  rwa [hb] at hsaid

lemma ite {p : Prop} [Decidable p] {o o' : Option (Text × Context)} (h : p → Says P o)
    (h' : ¬p → Says P o') : Says P (if p then o else o') := by
  split_ifs with hp
  · exact h hp
  · exact h' hp

lemma or {o o' : Option (Text × Context)} (h : Says P o) (h' : Says P o') : Says P (o.or o') := by
  cases o with
  | none => exact h'
  | some _ => exact h

end Says

namespace Verdict

variable {Q : Verdict → Prop} {after : Context}

/-- Whatever a rule says has a property. -/
def Ensures (Q : Verdict → Prop) (x : Except Fault Verdict) : Prop := ∀ v, x = .ok v → Q v

namespace Ensures

lemma accept {line : Text} (h : Q ⟨some [line], after⟩) : Ensures Q (accept line after) := by
  rintro _ ⟨⟩
  exact h

lemma decline (h : Q ⟨none, after⟩) : Ensures Q (decline after) := by
  rintro _ ⟨⟩
  exact h

lemma ofOption {o : Option (Text × Context)} (hnone : Q ⟨none, after⟩)
    (h : Says (fun line after => Q ⟨some [line], after⟩) o) : Ensures Q (ofOption after o) := by
  cases o with
  | none => exact .decline hnone
  | some found => exact .accept (h _ _ rfl)

lemma bind_ok {β : Type} {x : Except Fault β} {f : β → Except Fault Verdict}
    (h : ∀ b, x = .ok b → Ensures Q (f b)) : Ensures Q (x >>= f) := by
  cases x with
  | error fault => rintro _ ⟨⟩
  | ok b => exact h b rfl

lemma bind {β : Type} {x : Except Fault β} {f : β → Except Fault Verdict}
    (h : ∀ b, Ensures Q (f b)) : Ensures Q (x >>= f) :=
  bind_ok fun b _ => h b

end Ensures

/-- Whatever a rule says, it keeps a part of the context. -/
def Keeps {α : Type} (part : Context → α) (ctx : Context) (x : Except Fault Verdict) : Prop :=
  Ensures (fun v => part v.context = part ctx) x

lemma Keeps.standing {x : Except Fault Verdict} (h : Keeps Context.lasting ctx x) :
    Keeps Context.standing ctx x :=
  fun v hv => standing_of_lasting (h v hv)

end Verdict

/-- Whatever context an option holds, a part of it is the same as in `ctx`. -/
def Keeps {α : Type} (part : Context → α) (ctx : Context) (o : Option (Text × Context)) : Prop :=
  Says (fun _ after => part after = part ctx) o

end Says

/-! ## The rules -/

section Rules

variable (t : Text) (ctx : Context) (soft : Bool) (claim : Claim)

lemma elementWait_keeps : Verdict.Keeps Context.lasting ctx (elementWait t ctx) := by
  rw [elementWait]
  split
  · exact Ensures.decline rfl
  · split
    · exact Ensures.bind fun timeout => .accept (by simp)
    · exact Ensures.decline rfl

lemma driverWait_keeps : Verdict.Keeps Context.lasting ctx (driverWait t ctx) := by
  rw [driverWait]
  split
  · exact Ensures.decline rfl
  · split
    · exact Ensures.bind fun timeout => .accept (by simp)
    · exact Ensures.decline rfl

lemma sleep_keeps : Verdict.Keeps Context.lasting ctx (sleep t ctx) := by
  rw [sleep]
  split
  · exact Ensures.decline rfl
  · exact Ensures.bind fun duration => .accept (by simp)

lemma convertBefore_lasting (raw : Text) : (convertBefore raw ctx).2.lasting = ctx.lasting := by
  rw [convertBefore]
  split_ifs
  · rfl
  · rfl
  · split <;> rfl

lemma elementAction_keeps : Verdict.Keeps Context.lasting ctx (elementAction t ctx) := by
  refine Ensures.ofOption rfl (.bind fun found _ => .bind fun _ _ => .some ?_)
  exact convertBefore_lasting ctx found.before

lemma comparison?_keeps (negated : Bool) (args : List Text) :
    Keeps Context.lasting ctx (comparison? ctx soft negated args) := by
  rcases args with _ | ⟨_, _ | ⟨_, _⟩⟩
  · exact .none
  · exact .none
  · exact .some (lasting_record ..)

lemma visibility?_keeps (condition message : Text) :
    Keeps Context.lasting ctx (visibility? ctx soft claim condition message) := by
  cases claim with
  | isTrue | isFalse =>
    exact .bind fun _ _ => .bind fun _ _ => .some (lasting_record ..)
  | _ => exact .none

lemma valueTest?_keeps (args : List Text) :
    Keeps Context.lasting ctx (valueTest? ctx soft claim args) := by
  cases args with
  | nil => exact .none
  | cons => exact .or (visibility?_keeps ctx _ _ _ _) (.some (lasting_record ..))

lemma assertion_keeps : Verdict.Keeps Context.lasting ctx (assertion t ctx) := by
  refine Ensures.ofOption rfl (.bind fun a _ => ?_)
  split
  · exact comparison?_keeps ctx _ _ _
  · exact comparison?_keeps ctx _ _ _
  · exact valueTest?_keeps ctx _ _ _

lemma elementAssertion_keeps : Verdict.Keeps Context.lasting ctx (elementAssertion t ctx) :=
  Ensures.ofOption rfl <|
    .bind fun _ _ => .bind fun _ _ => .bind fun _ _ => .bind fun _ _ => .some (by simp)

lemma log_keeps : Verdict.Keeps Context.lasting ctx (log t ctx) :=
  Ensures.ofOption rfl <| .bind fun _ _ => .bind fun _ _ => .some rfl

lemma navigate_keeps : Verdict.Keeps Context.lasting ctx (navigate t ctx) :=
  Ensures.ofOption rfl <| .bind fun _ _ => .bind fun _ _ => .bind fun _ _ => .some (by simp)

lemma history_keeps : Verdict.Keeps Context.lasting ctx (history t ctx) :=
  Ensures.ofOption rfl <|
    .bind fun _ _ => .bind fun _ _ => .bind fun _ _ => .ite (fun _ => .some (by simp)) fun _ => .none

lemma newPageObject_keeps : Verdict.Keeps Context.standing ctx (newPageObject t ctx) :=
  Ensures.ofOption rfl <| .bind fun _ _ => .ite (fun _ => .some (by simp)) fun _ => .none

lemma chainedPageCall_keeps : Verdict.Keeps Context.standing ctx (chainedPageCall t ctx) := by
  rw [chainedPageCall]
  split
  · exact Ensures.decline rfl
  · split_ifs
    · exact Ensures.ofOption (by simp) (.bind fun _ _ => .some (by simp))
    · exact Ensures.decline rfl

lemma throw_keeps : Verdict.Keeps Context.standing ctx (throw t ctx) :=
  Ensures.ofOption rfl <|
    .bind fun _ _ => .bind fun _ _ => .ite (fun _ => .some (by simp)) fun _ => .some rfl

lemma returns_keeps : Verdict.Keeps Context.standing ctx (returns t ctx) := by
  refine Ensures.ofOption rfl (.bind fun value _ => ?_)
  split_ifs
  · exact .some rfl
  · exact .some rfl
  · exact .some rfl
  · exact .bind fun _ _ => .ite (fun _ => .some (by simp)) fun _ => .none

lemma literalDeclaration_keeps : Verdict.Keeps Context.lasting ctx (literalDeclaration t ctx) :=
  Ensures.ofOption rfl <| .bind fun _ _ => .ite (fun _ => .some (by simp)) fun _ => .none

lemma otherCall_standing (receiver name : Text) (args : List Text) :
    (otherCall ctx receiver name args).2.standing = ctx.standing := by
  unfold otherCall
  generalize (ctx.project.bind (·.get? receiver)).filter (·.name = receiver) = known
  cases known with
  | none => exact standing_record ..
  | some c => exact (standing_record ..).trans (standing_importClass ..)

lemma genericCall_keeps : Verdict.Keeps Context.standing ctx (genericCall t ctx) := by
  refine Ensures.ofOption rfl (.bind fun _ _ => .bind fun _ _ => ?_)
  dsimp only
  split_ifs
  · exact .none
  · exact .map fun _ _ => rfl
  · exact .none
  · exact .some (otherCall_standing ctx _ _ _)

lemma rule_keeps : ∀ rule ∈ rules, ∀ t ctx, Verdict.Keeps Context.standing ctx (rule.apply t ctx) := by
  simp only [rules, List.forall_mem_cons]
  exact ⟨fun t ctx => (elementWait_keeps t ctx).standing, fun t ctx => (driverWait_keeps t ctx).standing,
    fun t ctx => (elementAction_keeps t ctx).standing, fun t ctx => (sleep_keeps t ctx).standing,
    fun t ctx => (assertion_keeps t ctx).standing, fun t ctx => (elementAssertion_keeps t ctx).standing,
    fun t ctx => (log_keeps t ctx).standing, fun t ctx => (navigate_keeps t ctx).standing,
    fun t ctx => (history_keeps t ctx).standing, newPageObject_keeps, chainedPageCall_keeps, throw_keeps,
    returns_keeps, fun t ctx => (literalDeclaration_keeps t ctx).standing, genericCall_keeps, by simp⟩

end Rules

/-! ## Statements and headers -/

/-- The first of some rules accepts, or it leaves its context to the others. -/
lemma applyRules_cons_eq_ok {rest : List Rule}
    (h : applyRules t ctx (rule :: rest) = .ok (found, after)) : ∃ verdict, rule.apply t ctx = .ok verdict ∧
      ((∃ lines, verdict = ⟨some lines, after⟩ ∧ found = some (rule, lines)) ∨
        verdict.lines = none ∧ applyRules t verdict.context rest = .ok (found, after)) := by
  obtain ⟨⟨written, context⟩, hverdict, h⟩ := exists_of_bind_eq_ok h
  refine ⟨_, hverdict, ?_⟩
  cases written with
  | some lines =>
    cases h
    exact .inl ⟨lines, rfl, rfl⟩
  | none => exact .inr ⟨rfl, h⟩

/-- The rule that accepts is tried in a context of which what the rules before it hand on holds. -/
lemma exists_accepting {P : Context → Prop}
    (htried : ∀ rule ∈ tried, ∀ ctx, P ctx → ∀ v, rule.apply t ctx = .ok v → v.lines = none → P v.context)
    (hctx : P ctx) (h : applyRules t ctx tried = .ok (some (rule, lines), after)) :
    rule ∈ tried ∧ ∃ before, P before ∧ rule.apply t before = .ok ⟨some lines, after⟩ := by
  induction tried generalizing ctx with
  | nil => cases h
  | cons first rest ih =>
    rw [List.forall_mem_cons] at htried
    obtain ⟨verdict, hverdict, ⟨_, rfl, ⟨⟩⟩ | ⟨hnone, h⟩⟩ := applyRules_cons_eq_ok h
    · exact ⟨List.mem_cons_self, ctx, hctx, hverdict⟩
    · obtain ⟨hmem, hbefore⟩ := ih htried.2 (htried.1 ctx hctx verdict hverdict hnone) h
      exact ⟨List.mem_cons_of_mem _ hmem, hbefore⟩

lemma applyRules_keeps {α : Type} {part : Context → α}
    (htried : ∀ rule ∈ tried, ∀ ctx, Verdict.Keeps part ctx (rule.apply t ctx))
    (h : applyRules t ctx tried = .ok (found, after)) :
    part after = part ctx := by
  induction tried generalizing ctx with
  | nil => cases h; rfl
  | cons rule rest ih =>
    obtain ⟨verdict, hverdict, hcases⟩ := applyRules_cons_eq_ok h
    have hkept := htried rule (by simp) ctx verdict hverdict
    rcases hcases with ⟨_, rfl, -⟩ | ⟨-, h⟩
    · exact hkept
    · exact (ih (fun r hr => htried r (by simp [hr])) h).trans hkept

lemma statement_cases (h : statement line text ctx = .ok (lines, after)) :
    after.standing = ctx.standing ∨ ∃ tried : Context, tried.standing = ctx.standing ∧
      (lines, after) = leftOver line (trim text) tried := by
  simp only [statement] at h
  split_ifs at h
  · cases hr : applyRules (trim text) ctx rules with
    | error fault => rw [hr] at h; cases h
    | ok result =>
      obtain ⟨found, tried⟩ := result
      have htried := applyRules_keeps (fun rule hrule => rule_keeps rule hrule _) hr
      rw [hr] at h
      cases found with
      | some _ => cases h; exact .inl htried
      | none => exact .inr ⟨tried, htried, (Except.ok.inj h).symm⟩
  · exact .inr ⟨ctx, rfl, (Except.ok.inj h).symm⟩

lemma leftOver_setting (line : Int) (t : Text) (ctx : Context) :
    (leftOver line t ctx).2.setting = ctx.setting := by
  rw [leftOver]
  split_ifs <;> rfl

/-- **A statement** leaves the setting of its context as it was. -/
lemma statement_setting (h : statement line text ctx = .ok (lines, after)) :
    after.setting = ctx.setting := by
  rcases statement_cases h with hkept | ⟨tried, htried, hleft⟩
  · exact setting_of_standing hkept
  · have hkept := leftOver_setting line (trim text) tried
    rw [← hleft] at hkept
    exact hkept.trans (setting_of_standing htried)

lemma controlHeader?_lasting (h : controlHeader? ctx t = some (header, after)) :
    after.lasting = ctx.lasting := by
  rw [controlHeader?] at h
  split at h
  · cases h; rfl
  · split at h
    · cases h; rfl
    · obtain ⟨_, -, h⟩ := Option.map_eq_some_iff.1 h
      cases h; rfl

lemma controlHeader?_standing (h : controlHeader? ctx t = some (header, after)) :
    after.standing = ctx.standing :=
  standing_of_lasting (controlHeader?_lasting h)

lemma controlHeader?_setting (h : controlHeader? ctx t = some (header, after)) :
    after.setting = ctx.setting :=
  setting_of_standing (controlHeader?_standing h)

end Restage.Conversion
