import Restage.Proofs.Conversion.MethodParts

/-!
# Constants and assignments

A declaration of the source becomes a `const`, whatever comes after it, and an assignment stays an
assignment.  Three of the rules write one or the other, and so do the page objects at the start of a
step; no other line looks like either (`rule_binding`).  So what the lines of a method declare and
assign is what its statements do, one after the other (`MethodPart.written_eq_bound`), and a
constant of the output is assigned, or declared twice in a block, exactly where that happens to the
variable in the source (`const_reassigned_iff`).
-/

namespace Restage.Conversion

open Text Java TypeScript List Option
open Verdict (Ensures)

variable {e element gap name before : Text}

/-! ## Bindings -/

/-- What a line or a statement does to a variable. -/
inductive Binding where
  | declares (name : Text)
  | assigns (name : Text)
  deriving DecidableEq, Repr

/-- The name in front of an equals sign. -/
def assigned? (t : Text) : Option Text :=
  (word? t).bind fun found => (literal? " = " found.2).map fun _ => found.1

/-- What a line of code does to a variable: `const x = …` declares it, and `x = …` assigns it. -/
def bindingOf? (line : Text) : Option Binding :=
  (((literal? "const " line).bind assigned?).map .declares).or ((assigned? line).map .assigns)

section Lines

variable {w name r : Text} {d : Char}

lemma word?_cons (hw : isWordText w = true) (hd : isWord d = false) (r : Text) :
    word? (w ++ d :: r) = some (w, d :: r) := by
  refine word?_append hw fun c hc => ?_
  cases hc
  exact hd

lemma assigned?_word (hname : isWordText name = true) (r : Text) :
    assigned? (name ++ " = " ++ r) = some name := by
  rw [append_assoc, assigned?]
  have hword : word? (name ++ (" = " ++ r)) = some (name, " = " ++ r) := word?_cons hname (by decide) _
  rw [hword]
  rfl

lemma assigned?_eq_none (hw : isWordText w = true) (hd : isWord d = false)
    (hequals : literal? " = " (d :: r) = none) : assigned? (w ++ d :: r) = none := by
  rw [assigned?, word?_cons hw hd, bind_some, hequals]
  rfl

lemma literal?_const (hw : isWordText w = true) (hd : isWord d = false)
    (hconst : w ≠ "const".toList ∨ d ≠ ' ') : literal? "const " (w ++ d :: r) = none := by
  refine eq_none_iff_forall_ne_some.2 fun rest hrest => ?_
  have hsame : w ++ d :: r = "const" ++ ' ' :: rest := (literal?_eq_some.1 hrest).trans rfl
  have hword := (word?_cons hw hd r).symm.trans
    ((congrArg word? hsame).trans (word?_cons (by decide) (by decide) rest))
  cases hword
  rcases hconst with hne | hne <;> exact hne rfl

lemma bindingOf?_const (hname : isWordText name = true) (r : Text) :
    bindingOf? ("const " ++ name ++ " = " ++ r) = some (.declares name) := by
  rw [bindingOf?, append_assoc, append_assoc, literal?_append, bind_some,
    ← append_assoc, assigned?_word hname]
  rfl

lemma bindingOf?_eq_none (hw : isWordText w = true) (hd : isWord d = false)
    (hconst : w ≠ "const".toList ∨ d ≠ ' ') (hequals : literal? " = " (d :: r) = none) :
    bindingOf? (w ++ d :: r) = none := by
  rw [bindingOf?, literal?_const hw hd hconst, assigned?_eq_none hw hd hequals]
  rfl

lemma bindingOf?_dotted (hname : ∀ c ∈ name, isDotted c = true) (r : Text) :
    bindingOf? (name ++ " = " ++ r) = if isWordText name then some (.assigns name) else none := by
  have hword : ∀ t : Text, t ≠ [] → (∀ c ∈ t, isDotted c = true) → '.' ∉ t → isWordText t = true := by
    intro t hne ht hdot
    refine isWordText_of_ne_nil hne fun c hc => ?_
    have hdotted := ht c hc
    rw [isDotted, Bool.or_eq_true, beq_iff_eq] at hdotted
    exact hdotted.resolve_right fun hc' => hdot (hc' ▸ hc)
  by_cases hw : isWordText name = true
  · rw [if_pos hw, bindingOf?, assigned?_word hw]
    by_cases hconst : name = "const".toList
    · subst hconst
      rfl
    · have hnone : literal? "const " (name ++ " = " ++ r) = none := by
        rw [append_assoc]
        exact literal?_const hw (by decide) (.inl hconst)
      rw [hnone]
      rfl
  · rw [if_neg hw]
    by_cases hdot : '.' ∈ name
    · obtain ⟨first, rest, rfl, hfirst⟩ := eq_append_cons_of_mem hdot
      rw [append_assoc, append_assoc]
      by_cases hne : first = []
      · subst hne
        rfl
      · rw [forall_mem_append] at hname
        exact bindingOf?_eq_none (hword first hne hname.1 hfirst) (by decide) (.inr (by decide)) rfl
    · obtain rfl : name = [] := by
        by_contra hne
        exact hw (hword name hne hname hdot)
      rfl

lemma bindingOf?_await (hr : r.head? ≠ some '=') : bindingOf? ("await " ++ r) = none := by
  refine bindingOf?_eq_none (w := "await") (by decide) (by decide) (.inl (by decide)) ?_
  refine eq_none_iff_forall_ne_some.2 fun rest hrest => hr ?_
  cases literal?_eq_some.1 hrest
  rfl

lemma bindingOf?_return (hr : ' ' ∉ r) : bindingOf? ("return " ++ (r ++ ";")) = none := by
  refine bindingOf?_eq_none (w := "return") (by decide) (by decide) (.inl (by decide)) ?_
  refine eq_none_iff_forall_ne_some.2 fun rest hrest => ?_
  have hcut : r ++ [';'] = '=' :: ' ' :: rest := (cons.inj (literal?_eq_some.1 hrest)).2
  rcases r with _ | ⟨c, _ | ⟨c', r⟩⟩
  · cases hcut
  · cases hcut
  · cases hcut
    simp at hr

end Lines

/-! ## What statements bind -/

/-- What stands before an element binds: the variable of a declaration, or a word that is
assigned. -/
def beforeBinding? (raw : Text) : Option Binding :=
  let t := trim raw
  if raw.isEmpty ∨ t = "return".toList then none
  else match declaredVariable? (fun r => if atEnd r then some r else none) t with
    | some (_, name, _) => some (.declares name)
    | none =>
      let target := trim (dropEnd (fun c => c == '=' || c == ' ') t)
      if isWordText target then some (.assigns target) else none

/-- What a statement binds in the reading of the rule that accepts it.  Three of the rules read a
variable. -/
def ruleBinding? (rule t : Text) : Option Binding :=
  if rule = "element_action".toList then (elementAction? t).bind (beforeBinding? ·.before)
  else if rule = "new_page_object".toList then (newObject? t).map fun found =>
    if found.typed then .declares found.name else .assigns found.name
  else if rule = "literal_declaration".toList then (initialised? t).map (.declares ·.name)
  else none

/-- The lines of a verdict bind what is given. -/
def Verdict.Binds (b : Option Binding) (v : Verdict) : Prop :=
  ∀ lines, v.lines = some lines → lines.filterMap bindingOf? = b.toList

namespace Verdict.Binds

variable {b : Option Binding} {ctx : Context}

lemma declined : Binds b ⟨none, ctx⟩ := by
  rintro _ ⟨⟩

lemma one {line : Text} (hline : bindingOf? line = b) : Binds b ⟨some [line], ctx⟩ := by
  rintro _ ⟨⟩
  rw [filterMap_cons, hline]
  cases b <;> rfl

end Verdict.Binds

section Rules

open Verdict (Binds)
open Verdict.Binds (declined one)

variable {t : Text} {ctx : Context} (soft : Bool) (claim : Claim)

/-! ### Rules that bind nothing -/

section

variable (h : ctx.Neat)
include h

lemma bindingOf?_page (r : Text) : bindingOf? ("await " ++ ctx.pageRef ++ r) = none := by
  refine bindingOf?_await ?_
  rcases h.page with hpage | hpage
  · rw [hpage]
    exact fun h => by cases h
  · rw [hpage]
    exact fun h => by cases h

lemma bindingOf?_element (helement : element? ctx e = some element) (r : Text) :
    bindingOf? ("await " ++ element ++ r) = none := by
  rcases element?_cases helement with ⟨r', rfl⟩ | ⟨r', rfl⟩
  · have hline := bindingOf?_page h ("." ++ r' ++ r)
    simpa using hline
  · rw [append_assoc]
    exact bindingOf?_await fun h => by cases h

lemma bindingOf?_waitLine (helement : element? ctx e = some element) (awaited : Awaited)
    (timeout : Option Text) : bindingOf? (waitLine element awaited timeout) = none := by
  cases awaited with
  | state name =>
    unfold waitLine
    simp only [append_assoc]
    exact bindingOf?_element h helement _
  | expectation matcher =>
    exact bindingOf?_await fun h => by cases h

lemma elementWait_binding : Ensures (Binds none) (elementWait t ctx) := by
  rw [elementWait]
  split
  · exact .decline declined
  · split
    next helement _ => exact .bind fun timeout => .accept (one (bindingOf?_waitLine h helement _ _))
    · exact .decline declined

lemma driverWait_binding : Ensures (Binds none) (driverWait t ctx) := by
  rw [driverWait]
  split
  · exact .decline declined
  · split
    next _ helement => exact .bind fun timeout => .accept (one (bindingOf?_waitLine h helement _ _))
    · exact .decline declined

lemma sleep_binding : Ensures (Binds none) (sleep t ctx) := by
  rw [sleep]
  split
  · exact .decline declined
  · refine .bind fun duration => .accept (one ?_)
    simpa using bindingOf?_page h (".waitForTimeout(" ++ duration ++ ");")

omit h in
lemma log_binding : Ensures (Binds none) (log t ctx) := by
  refine .ofOption declined <| .bind fun _ _ => .bind fun _ _ => .some (one ?_)
  rfl

lemma navigate_binding : Ensures (Binds none) (navigate t ctx) := by
  refine .ofOption declined <| .bind fun _ _ => .bind fun _ _ => .bind fun address _ => .some (one ?_)
  simpa using bindingOf?_page h (".goto(" ++ expression ctx address ++ ");")

lemma history_binding : Ensures (Binds none) (history t ctx) := by
  refine .ofOption declined <| .bind fun _ _ => .bind fun found _ => .bind fun _ _ =>
    .ite (fun _ => .some (one ?_)) fun _ => .none
  simpa using bindingOf?_page h ("." ++ found.1 ++ "();")

end

/-- Every acceptance binds what is given. -/
abbrev SaysBinds (b : Option Binding) : Option (Text × Context) → Prop :=
  Says fun line after => Binds b ⟨some [line], after⟩

lemma bindingOf?_expectation (r : Text) :
    bindingOf? (expectation soft ++ "(" ++ r) = none ∧
      bindingOf? ("await " ++ expectation soft ++ "(" ++ r) = none := by
  cases soft with
  | false => exact ⟨rfl, rfl⟩
  | true => exact ⟨rfl, rfl⟩

lemma visibility?_binding (condition message : Text) :
    SaysBinds none (visibility? ctx soft claim condition message) := by
  cases claim with
  | isTrue | isFalse =>
    refine .bind fun _ _ => .bind fun element _ => .some (one ?_)
    simpa using (bindingOf?_expectation soft (element ++ message ++ ")." ++ _)).2
  | equals | notEquals | isNull | isNotNull => exact .none

lemma comparison?_binding (negated : Bool) (args : List Text) :
    SaysBinds none (comparison? ctx soft negated args) := by
  rcases args with _ | ⟨_, _ | ⟨_, _⟩⟩
  · exact .none
  · exact .none
  · refine .some (one ?_)
    simp only [append_assoc]
    rw [← append_assoc]
    exact (bindingOf?_expectation soft _).1

lemma valueTest?_binding (args : List Text) :
    SaysBinds none (valueTest? ctx soft claim args) := by
  cases args with
  | nil => exact .none
  | cons condition rest =>
    refine .or (visibility?_binding _ _ _ _) (.some (one ?_))
    simp only [append_assoc]
    rw [← append_assoc]
    exact (bindingOf?_expectation soft _).1

lemma assertion_binding : Ensures (Binds none) (assertion t ctx) := by
  refine .ofOption declined (.bind fun a _ => ?_)
  split
  · exact comparison?_binding _ _ _
  · exact comparison?_binding _ _ _
  · exact valueTest?_binding _ _ _

lemma elementAssertion_binding : Ensures (Binds none) (elementAssertion t ctx) := by
  refine .ofOption declined <| .bind fun call _ => .bind fun element _ => .bind fun soft _ =>
    .bind fun matcher _ => .some (one ?_)
  generalize (if matcher = "toHaveText".toList then _ else _ : List Text) = args
  simpa using (bindingOf?_expectation soft.1
    (element ++ ")." ++ matcher ++ "(" ++ join ", " args ++ ");")).2

lemma chainedPageCall_binding : Ensures (Binds none) (chainedPageCall t ctx) := by
  rw [chainedPageCall]
  split
  · exact .decline declined
  · split_ifs
    · refine .ofOption declined (.bind fun found _ => .some (one ?_))
      simp only [append_assoc]
      rfl
    · exact .decline declined

lemma throw_binding : Ensures (Binds none) (throw t ctx) := by
  refine .ofOption declined <| .bind fun found _ => .bind fun args _ =>
    .ite (fun _ => .some (one ?_)) fun _ => .some (one ?_)
  · simp only [append_assoc]
    rfl
  · simp only [append_assoc]
    rfl

lemma returns_binding (h : ctx.Neat) : Ensures (Binds none) (returns t ctx) := by
  refine .ofOption declined (.bind fun value _ => ?_)
  split_ifs with hempty hself hplain
  · exact .some (one rfl)
  · exact .some (one rfl)
  · refine .some (one ?_)
    rcases hplain with hliteral | hscope
    · cases value with
      | nil => cases hempty rfl
      | cons c r =>
        refine bindingOf?_eq_none (w := "return") (by decide) (by decide) (.inl (by decide)) ?_
        refine eq_none_iff_forall_ne_some.2 fun rest hrest => ?_
        have hcut : c :: (r ++ [';']) = '=' :: ' ' :: rest := (cons.inj (literal?_eq_some.1 hrest)).2
        obtain rfl := (cons.inj hcut).1
        cases hliteral
    · refine bindingOf?_return fun hblank => ?_
      have hnot := h.scope value (contains_iff_mem.1 hscope) ' ' hblank
      cases hnot
  · refine .bind fun name _ => .ite (fun _ => .some (one ?_)) fun _ => .none
    rfl

lemma bindingOf?_call {callee : Text} (hcallee : ∀ c ∈ callee, isDotted c = true) (r : Text) :
    bindingOf? ("await " ++ (callee ++ '(' :: r)) = none := by
  refine bindingOf?_await ?_
  cases callee with
  | nil => exact fun h => by cases h
  | cons c callee =>
    rintro ⟨⟩
    cases hcallee '=' mem_cons_self

lemma ownCall?_binding (h : ctx.Neat) (hname : ∀ c ∈ name, isWord c = true) (args : List Text) : SaysBinds none ((ownCall? ctx name args).map (·, ctx)) := by
  refine .map fun line hline => one ?_
  have hdotted := isDotted_of_isWord hname
  have hqualified : ∀ (w r : Text), (∀ c ∈ w, isDotted c = true) →
      bindingOf? ("await " ++ w ++ "." ++ (name ++ '(' :: r)) = none := by
    intro w r hw
    have hcallee : ∀ c ∈ w ++ "." ++ name, isDotted c = true :=
      forall_mem_append.2 ⟨forall_mem_append.2 ⟨hw, by decide⟩, hdotted⟩
    simpa using bindingOf?_call hcallee r
  obtain ⟨r, rfl | ⟨className, hword, -, rfl⟩ | rfl⟩ := ownCall?_cases h hline
  · exact bindingOf?_call hdotted _
  · exact hqualified className _ (isDotted_of_isWord hword)
  · exact hqualified "this" _ (by decide)

lemma otherCall_binding {receiver : Text} (hreceiver : ∀ c ∈ receiver, isDotted c = true)
    (hname : ∀ c ∈ name, isWord c = true) (args : List Text) :
    bindingOf? (otherCall ctx receiver name args).1 = none := by
  have hcallee : ∀ c ∈ receiver ++ "." ++ name, isDotted c = true :=
    forall_mem_append.2 ⟨forall_mem_append.2 ⟨hreceiver, by decide⟩, isDotted_of_isWord hname⟩
  unfold otherCall
  generalize (ctx.project.bind (·.get? receiver)).filter (·.name = receiver) = known
  cases known with
  | none => simpa using bindingOf?_call hcallee (join ", " args ++ ");")
  | some c => simpa using bindingOf?_call hcallee _

lemma genericCall_binding (h : ctx.Neat) : Ensures (Binds none) (genericCall t ctx) := by
  refine .ofOption declined <| .bind fun statement _ => .bind fun call _ => ?_
  have hchars := receiverAndName_chars call.1
  dsimp only
  split_ifs with hskip
  · exact .none
  · exact ownCall?_binding h (hchars (by simpa using (not_or.1 (not_or.1 hskip).2).1)).2 _
  · exact .none
  · obtain ⟨hreceiver, hname⟩ := hchars (by simpa using (not_or.1 (not_or.1 hskip).2).1)
    exact .some (one (otherCall_binding hreceiver hname _))

/-! ### What precedes an element -/

lemma dropWhile_of_forall {p : Char → Bool} {u : Text} (h : ∀ c ∈ u, p c = false) : u.dropWhile p = u := by
  cases u with
  | nil => rfl
  | cons c u => exact dropWhile_cons_of_neg (by simp [h c mem_cons_self])

lemma trim_append_blanks (hne : name ≠ []) (hname : name.any isBlank = false)
    (hgap : ∀ c ∈ gap, isBlank c = true) : trim (name ++ gap) = name := by
  have hshown := forall_of_any_eq_false hname
  have hleft : trimLeft (name ++ gap) = name ++ gap := by
    obtain ⟨c, r, rfl⟩ := exists_cons_of_ne_nil hne
    exact dropWhile_cons_of_neg (by simp [hshown c mem_cons_self])
  rw [trim, hleft, trimRight, reverse_append,
    dropWhile_append_of_pos fun c hc => hgap c (mem_reverse.1 hc),
    dropWhile_of_forall fun c hc => hshown c (mem_reverse.1 hc), reverse_reverse]

lemma trim_dropEnd_equals {gap' : Text} (hne : name ≠ []) (hname : ∀ c ∈ name, isDotted c = true)
    (hgap : ∀ c ∈ gap, isBlank c = true) (hgap' : ∀ c ∈ gap', isBlank c = true) :
    trim (dropEnd (fun c => c == '=' || c == ' ') (trim (name ++ gap ++ '=' :: gap'))) = name := by
  have hshown : ∀ c ∈ name, isBlank c = false ∧ (c == '=' || c == ' ') = false := by
    intro c hc
    have hdotted := hname c hc
    refine ⟨?_, Bool.eq_false_iff.2 fun hend => ?_⟩
    · rw [isDotted, Bool.or_eq_true, beq_iff_eq] at hdotted
      rcases hdotted with hword | rfl
      · exact isBlank_eq_false_of_isWord hword
      · decide
    · rw [Bool.or_eq_true, beq_iff_eq, beq_iff_eq] at hend
      rcases hend with rfl | rfl <;> cases hdotted
  have hleft : trimLeft (name ++ gap) = name ++ gap := by
    obtain ⟨c, r, rfl⟩ := exists_cons_of_ne_nil hne
    exact dropWhile_cons_of_neg (by simp [(hshown c mem_cons_self).1])
  -- Some of the blanks in front of the sign are dropped with it, the others afterwards.
  obtain ⟨left, hleftover, hsub⟩ : ∃ left : Text,
      dropEnd (fun c => c == '=' || c == ' ') (name ++ gap) = name ++ left ∧ left ⊆ gap := by
    refine ⟨dropEnd (fun c => c == '=' || c == ' ') gap, ?_, dropEnd_subset _ _⟩
    rw [dropEnd, dropEnd, reverse_append, dropWhile_append]
    split_ifs with hall
    · rw [isEmpty_iff.1 hall, dropWhile_of_forall fun c hc => (hshown c (mem_reverse.1 hc)).2]
      simp
    · simp
  rw [trim_append_equals hgap', hleft, dropEnd_append_equals, hleftover]
  refine trim_append_blanks hne ?_ fun c hc => hgap c (hsub hc)
  exact any_eq_false.2 fun c hc => by simp [(hshown c hc).1]

lemma Precedes.assigned (h : Precedes before) (hempty : ¬before.isEmpty = true)
    (hreturn : trim before ≠ "return".toList)
    (hdeclared : declaredVariable? (fun r => if atEnd r then some r else none) (trim before) = none) :
    ∀ c ∈ trim (dropEnd (fun c => c == '=' || c == ' ') (trim before)), isDotted c = true := by
  cases h with
  | nothing => cases hempty rfl
  | returning hgap => exact absurd (trim_append_blanks (by decide) (by decide) hgap) hreturn
  | @declaring u gap hu _ hgap =>
    have hsome : (declaredVariable? (fun r => if atEnd r then some r else none)
        (u ++ ['='])).isSome = true := hu.isSome rfl
    rw [trim_append_equals hgap, hu.trimLeft_eq] at hdeclared
    rw [hdeclared] at hsome
    cases hsome
  | assigning hne hname hgap hgap' =>
    rw [trim_dropEnd_equals hne hname hgap hgap']
    exact hname

lemma convertBefore_binding (hbefore : Precedes before) {r : Text}
    (hr : bindingOf? ("await " ++ r) = none) :
    bindingOf? ((convertBefore before ctx).1 ++ ("await " ++ r)) = beforeBinding? before := by
  rw [convertBefore, beforeBinding?]
  by_cases hempty : before.isEmpty = true
  · rw [if_pos hempty, if_pos (.inl hempty)]
    exact hr
  by_cases hreturn : trim before = "return".toList
  · rw [if_neg hempty, if_pos hreturn, if_pos (.inr hreturn)]
    rfl
  rw [if_neg hempty, if_neg hreturn, if_neg (not_or.2 ⟨hempty, hreturn⟩)]
  cases hdeclared : declaredVariable? (fun r => if atEnd r then some r else none) (trim before) with
  | some found =>
    exact bindingOf?_const (declaredVariable?_word hdeclared).word _
  | none => exact bindingOf?_dotted (hbefore.assigned hempty hreturn hdeclared) _

lemma elementAction_binding (h : ctx.Neat) :
    Ensures (Binds ((elementAction? t).bind (beforeBinding? ·.before))) (elementAction t ctx) := by
  refine .ofOption declined <| .bind fun found hfound => .bind fun element helement => .some (one ?_)
  rw [hfound]
  obtain ⟨start, hstart, hread⟩ := exists_of_findSome?_eq_some hfound
  obtain ⟨call, -, rfl⟩ := map_eq_some_iff.1 hread
  obtain ⟨before, rfl, hbefore⟩ := exists_precedes hstart
  simp only [append_assoc]
  rw [consumed_append]
  refine convertBefore_binding hbefore ?_
  rw [← append_assoc]
  exact bindingOf?_element h helement _

lemma newPageObject_binding : Ensures
    (Binds ((newObject? t).map fun found => if found.typed then .declares found.name else .assigns found.name))
    (newPageObject t ctx) := by
  refine .ofOption declined <| .bind fun found hfound => .ite (fun _ => .some (one ?_)) fun _ => .none
  rw [hfound, map_some]
  obtain ⟨⟨hname, -⟩, -⟩ := newObject?_words hfound
  have hcut : ∀ r : Text, " = new " ++ r = " = " ++ ("new " ++ r) := fun r => rfl
  cases found.typed with
  | true =>
    simp only [append_assoc]
    have hline := fun r : Text => bindingOf?_const hname r
    simp only [append_assoc] at hline
    exact hline _
  | false =>
    simp only [append_assoc, hcut]
    have hline := fun r : Text => bindingOf?_dotted (isDotted_of_isWord (all_isWord hname)) r
    simp only [append_assoc, hname] at hline
    exact hline _

lemma literalDeclaration_binding : Ensures (Binds ((initialised? t).map (.declares ·.name)))
    (literalDeclaration t ctx) := by
  refine .ofOption declined <| .bind fun found hfound => .ite (fun _ => .some (one ?_)) fun _ => .none
  rw [hfound, append_assoc]
  exact bindingOf?_const (initialised?_parts hfound).1.word _

/-- **A rule** writes a line that binds what the rule reads. -/
lemma rule_binding : ∀ rule ∈ rules, ∀ t ctx, ctx.Neat →
    Ensures (Binds (ruleBinding? rule.name t)) (rule.apply t ctx) := by
  simp only [rules, forall_mem_cons]
  exact ⟨fun _ _ => elementWait_binding, fun _ _ => driverWait_binding, fun _ _ => elementAction_binding,
    fun _ _ => sleep_binding, fun _ _ _ => assertion_binding, fun _ _ _ => elementAssertion_binding,
    fun _ _ _ => log_binding, fun _ _ => navigate_binding, fun _ _ => history_binding,
    fun _ _ _ => newPageObject_binding, fun _ _ _ => chainedPageCall_binding, fun _ _ _ => throw_binding,
    fun _ _ => returns_binding, fun _ _ _ => literalDeclaration_binding, fun _ _ => genericCall_binding,
    by simp⟩

/-- What a statement binds: what is read by the rule that accepts it. -/
def textBinding? (text : Text) (ctx : Context) : Option Binding :=
  (acceptingRule? text ctx).bind fun rule => ruleBinding? rule.name (trim text)

/-- **A statement** becomes lines that bind what it binds. -/
lemma statement_binding (hneat : ctx.Neat) {line : Int} {text : Text} {lines : List Text} {after : Context}
    (h : statement line text ctx = .ok (lines, after)) :
    lines.filterMap bindingOf? = (textBinding? text ctx).toList := by
  rw [textBinding?]
  rcases statement_eq_ok hneat h with ⟨rule, hmem, haccepts, before, hbefore, -, happly⟩ |
    ⟨hnone, tried, hleft⟩
  · rw [haccepts]
    exact rule_binding rule hmem (trim text) before hbefore _ happly lines rfl
  · rw [hnone]
    rw [leftOver] at hleft
    split_ifs at hleft
    · cases hleft
      rfl
    · cases hleft
      rfl

end Rules

/-! ## Bindings along a method -/

/-- What happens along a method: variables are bound, and blocks are opened and closed. -/
inductive Mark where
  | binds (b : Binding)
  | opens
  | closes
  deriving DecidableEq, Repr

/-- What the lines of a call bind, and what it does to blocks. -/
def callMarks : Call → List Mark
  | .emit lines => (lines.filterMap bindingOf?).map .binds
  | .openScope _ _ => [.opens]
  | .chain _ => [.closes, .opens]
  | .closeScope => [.closes]
  | .addImport _ | .comment _ | .blank | .insert _ _ => []

namespace Emission

/-- What is written binds; comments bind nothing. -/
def written : Emission → List Mark
  | comment _ => []
  | e => e.calls.flatMap callMarks

/-- What the source binds where this is written. -/
def bound : Emission → List Mark
  | header _ => [.opens]
  | page f => [.binds (.declares f.name)]
  | code _ text ctx => (textBinding? text ctx).toList.map .binds
  | block text ctx => if (controlHeader? ctx text).isSome then [.opens] else []
  | chain text ctx => if (controlHeader? ctx text).isSome then [.closes, .opens] else []
  | kept _ | comment _ => []
  | margin c => if c = .closeScope then [.closes] else []

/-- **What is written binds what the source binds.** -/
lemma Within.written_eq_bound {setting : Context} {e : Emission} (h : e.Within setting) :
    e.written = e.bound := by
  have hone : ∀ c : Call, [c].flatMap callMarks = callMarks c := fun c => flatMap_singleton ..
  cases e with
  | header _ => rfl
  | page f =>
    have hline : bindingOf? ("const " ++ f.name ++ " = new " ++ f.elementType ++ "(page);") =
        some (.declares f.name) := by
      simpa using bindingOf?_const (h.page f rfl) ("new " ++ f.elementType ++ "(page);")
    have hmarks : (Emission.page f).written = callMarks (.emit ["const " ++ f.name ++ " = new " ++
        f.elementType ++ "(page);"]) := hone _
    rw [hmarks, callMarks, filterMap_cons, hline]
    rfl
  | code line text ctx =>
    obtain ⟨hneat, -⟩ := h.context ctx rfl
    have hmarks : (Emission.code line text ctx).written = (convertCalls line text ctx).flatMap callMarks :=
      rfl
    rw [hmarks, bound, convertCalls]
    cases hstatement : statement line text ctx with
    | error fault =>
      rw [textBinding?, acceptingRule?_of_error hstatement]
      rfl
    | ok found =>
      rw [hone, callMarks, statement_binding hneat hstatement]
  | block text ctx =>
    have hmarks : (Emission.block text ctx).written =
        ((controlHeader? ctx text).map fun said => Call.openScope said.1 "\x7d").toList.flatMap callMarks :=
      rfl
    rw [hmarks, bound]
    cases controlHeader? ctx text <;> rfl
  | chain text ctx =>
    have hmarks : (Emission.chain text ctx).written =
        ((controlHeader? ctx text).map fun said => Call.chain ("\x7d " ++ said.1)).toList.flatMap
          callMarks := rfl
    rw [hmarks, bound]
    cases controlHeader? ctx text <;> rfl
  | kept s => rfl
  | comment s => rfl
  | margin c =>
    have hmargin := h.margin c rfl
    cases c with
    | closeScope | blank | insert => rfl
    | addImport | emit | comment | openScope | chain => cases hmargin

end Emission

/-! ## Methods -/

/-- How deep in blocks the end of some marks is, from a given depth; there is none if the block that
is started from is closed. -/
def blockDepth? : Nat → List Mark → Option Nat
  | d, [] => some d
  | d, .opens :: rest => blockDepth? (d + 1) rest
  | d + 1, .closes :: rest => blockDepth? d rest
  | 0, .closes :: _ => none
  | d, .binds _ :: rest => blockDepth? d rest

/-- A constant is declared, and later it is assigned, or it is declared again in the same block. -/
def ReassignsConst (marks : List Mark) : Prop :=
  ∃ before between after x m, marks = before ++ .binds (.declares x) :: (between ++ m :: after) ∧
    (m = .binds (.assigns x) ∨ m = .binds (.declares x) ∧ blockDepth? 0 between = some 0)

namespace MethodPart

variable {t : Task} (p : MethodPart t)

/-- What the lines that are written for a method bind. -/
def written : List Mark := p.emissions.flatMap Emission.written

/-- What the statements of a method bind. -/
def bound : List Mark := p.emissions.flatMap Emission.bound

/-- **The lines of a method bind what its statements do**, in their order. -/
lemma written_eq_bound : p.written = p.bound := by
  exact flatMap_congr fun e he => (p.within_emissions e he).written_eq_bound

end MethodPart

/-- **A constant is assigned**, or declared again in its block, in the lines that are written for a
method exactly if that happens to a variable in the statements of the method. -/
theorem const_reassigned_iff (t : Task) (p : MethodPart t) :
    (emittedCalls p.emissions = p.calls ∧ p.calls <:+: t.calls) ∧
      (ReassignsConst p.written ↔ ReassignsConst p.bound) := by
  refine ⟨⟨p.calls_emissions, p.calls_infix⟩, ?_⟩
  rw [p.written_eq_bound]

/-- A variable that is declared with the text of an element and then gets another text. -/
theorem constant_assigned :
    let t : Task :=
      { document := ⟨["class A \x7b", "@FindBy(id = \"x\")", "WebElement x;", "void m() \x7b",
          "String t = x.getText();", "t = x.getText();", "\x7d", "\x7d"]⟩
        baseImports := ({} : Settings).baseImports }
    ∃ (p : MethodPart t) (o : Output), t.run = .ok o ∧
      p.written = [.opens, .binds (.declares "t"), .binds (.assigns "t"), .closes] ∧
      ReassignsConst p.written ∧
      ("const t = await (await this.x()).innerText();" : Text) ∈ (lines o.code).map trimLeft ∧
      ("t = await (await this.x()).innerText();" : Text) ∈ (lines o.code).map trimLeft := by
  intro t
  have hs := t.surroundings_of_sorted (by decide +kernel)
  -- The method is declared by the fourth statement.
  obtain ⟨p, hwritten⟩ : ∃ p : MethodPart t,
      p.written = [.opens, .binds (.declares "t"), .binds (.assigns "t"), .closes] := by
    refine Task.exists_methodPart (n := 3) (P := fun found => found.2.flatMap Emission.written =
      [.opens, .binds (.declares "t"), .binds (.assigns "t"), .closes]) ?_
    rw [hs]
    decide +kernel
  obtain ⟨final, hwalk, hlines⟩ : ∃ final, t.walk = .ok final ∧
      ("const t = await (await this.x()).innerText();" : Text) ∈
        (lines (Task.finishedSheet final).render).map trimLeft ∧
      ("t = await (await this.x()).innerText();" : Text) ∈
        (lines (Task.finishedSheet final).render).map trimLeft := by
    rw [Task.walk, hs]
    exact exists_of_any_toOption (by decide +kernel)
  obtain ⟨o, ho, hcode⟩ : ∃ o, t.run = .ok o ∧ o.code = (Task.finishedSheet final).render := by
    rw [Task.run, hwalk]
    exact ⟨_, rfl, rfl⟩
  refine ⟨p, o, ho, hwritten, ?_, hcode ▸ hlines⟩
  rw [hwritten]
  exact ⟨[.opens], [], [.closes], "t", .binds (.assigns "t"), rfl, .inl rfl⟩

end Restage.Conversion
