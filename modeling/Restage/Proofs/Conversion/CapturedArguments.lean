import Restage.Proofs.Conversion.StatementNames

/-!
# The arguments that rules capture

Five of the rules name a call and take everything between the parenthesis after the name and the
last one of the statement for its arguments.  They do not look for the parenthesis that matches.
What they capture is complete if the statement ends with the call that is named; if another call is
chained to it, the captured text runs on into that one, and the rule accepts all the same.

`Capturing.captured?` says what each rule captures, and `captured_arguments_complete_iff` when it is
complete: exactly if the split of the call from the right gives the same arguments.
-/

namespace Restage.Conversion

open Text Java List Option

variable (c : Capturing) {lines : List Text}

/-! ## What is captured -/

/-- The names of the assertions about values. -/
def assertionNames : List Text :=
  (["assert", "verify"] : List Text).flatMap fun start => claims.map (start ++ ·.1)

/-- The name of an assertion about values, and the text after its parenthesis. -/
def assertionCall? (t : Text) : Option (Text × Text) :=
  calledName? assertionNames ((assertionClasses.findSome? fun c => literal? (c ++ ".") t).getD t)

/-- A name and the arguments that follow it up to the end of the statement. -/
def withArguments? (called : Text × Text) : Option (Text × Text) :=
  (callArguments? called.2).map (called.1, ·)

/-- The rules that capture arguments. -/
inductive Capturing where
  | elementAction
  | assertion
  | elementAssertion
  | log
  | throw
  deriving DecidableEq, Repr

namespace Capturing

def rule : Capturing → Rule
  | elementAction => ⟨"element_action", .action, Conversion.elementAction⟩
  | assertion => ⟨"assertion", .assertion, Conversion.assertion⟩
  | elementAssertion => ⟨"element_assertion", .assertion, Conversion.elementAssertion⟩
  | log => ⟨"log", .passthrough, Conversion.log⟩
  | throw => ⟨"throw", .passthrough, Conversion.throw⟩

/-- The name that is called in a text, and what is captured as its arguments. -/
def captured? (t : Text) : Capturing → Option (Text × Text)
  | elementAction => (elementAction? t).map fun found => (found.call.method, found.call.arguments)
  | assertion => (assertionCall? t).bind withArguments?
  | elementAssertion =>
    (receiverCall? elementAssertions callArguments? t).map fun call => (call.method, call.arguments)
  | log => (calledName? logCallees t).bind withArguments?
  | throw => (((literal? "throw" t).bind someBlanks?).bind constructed?).bind withArguments?

end Capturing

/-! ## A rule that accepts has captured something -/

variable {t : Text} {ctx after : Context} {rule : Rule}

lemma assertionCall?_of_assertion? {a : Assertion} (h : assertion? t = some a) :
    ∃ name, (assertionCall? t).bind withArguments? = some (name, a.arguments) := by
  unfold assertion? at h
  unfold assertionCall?
  generalize (assertionClasses.findSome? fun c => literal? (c ++ ".") t).getD t = r at h ⊢
  obtain ⟨⟨soft, ending⟩, hsoft, h⟩ := bind_eq_some_iff.1 h
  obtain ⟨⟨claim, rest⟩, hclaim, h⟩ := bind_eq_some_iff.1 h
  obtain ⟨args, harguments, h⟩ := bind_eq_some_iff.1 h
  cases h
  obtain ⟨⟨word, _⟩, hword, hread⟩ := exists_of_findSome?_eq_some hclaim
  obtain ⟨_, hending, hpair⟩ := map_eq_some_iff.1 hread
  cases hpair
  obtain ⟨start, hstart, hr⟩ : ∃ start, start ∈ (["assert", "verify"] : List Text) ∧ r = start ++ ending := by
    rcases or_eq_some_iff.1 hsoft with hsoft | ⟨-, hsoft⟩
    · obtain ⟨_, hread, hpair⟩ := map_eq_some_iff.1 hsoft
      cases hpair
      exact ⟨_, by decide, literal?_eq_some.1 hread⟩
    · obtain ⟨_, hread, hpair⟩ := map_eq_some_iff.1 hsoft
      cases hpair
      exact ⟨_, by decide, literal?_eq_some.1 hread⟩
  have hname : start ++ word ∈ assertionNames :=
    mem_flatMap.2 ⟨start, hstart, mem_map.2 ⟨_, hword, rfl⟩⟩
  have hcalled : r = (start ++ word) ++ '(' :: rest := by
    have hrest : ending = word ++ "(" ++ rest := literal?_eq_some.1 hending
    rw [hr, hrest]
    simp
  refine ⟨start ++ word, ?_⟩
  rw [hcalled, calledName?_append (by decide) hname, bind_some, withArguments?, harguments]
  rfl

lemma exists_of_ofOption {o : Option (Text × Context)}
    (h : Verdict.ofOption ctx o = .ok ⟨some lines, after⟩) : ∃ line, o = some (line, after) := by
  cases o with
  | none => cases h
  | some found =>
    obtain ⟨line, context⟩ := found
    cases h
    exact ⟨line, rfl⟩

lemma captured_of_accept (h : c.rule.apply t ctx = .ok ⟨some lines, after⟩) :
    ∃ name args, c.captured? t = some (name, args) := by
  suffices hsome : (c.captured? t).isSome = true by
    obtain ⟨⟨name, args⟩, hcaptured⟩ := isSome_iff_exists.1 hsome
    exact ⟨name, args, hcaptured⟩
  cases c with
  | elementAction =>
    obtain ⟨line, h⟩ := exists_of_ofOption h
    obtain ⟨found, hfound, -⟩ := bind_eq_some_iff.1 h
    rw [Capturing.captured?, hfound]
    rfl
  | assertion =>
    obtain ⟨line, h⟩ := exists_of_ofOption h
    obtain ⟨a, ha, -⟩ := bind_eq_some_iff.1 h
    obtain ⟨name, hname⟩ := assertionCall?_of_assertion? ha
    rw [Capturing.captured?, hname]
    rfl
  | elementAssertion =>
    obtain ⟨line, h⟩ := exists_of_ofOption h
    obtain ⟨call, hcall, -⟩ := bind_eq_some_iff.1 h
    rw [Capturing.captured?, hcall]
    rfl
  | log | throw =>
    obtain ⟨line, h⟩ := exists_of_ofOption h
    obtain ⟨called, hcalled, h⟩ := bind_eq_some_iff.1 h
    obtain ⟨args, harguments, -⟩ := bind_eq_some_iff.1 h
    rw [Capturing.captured?, hcalled, bind_some, withArguments?, harguments]
    rfl

lemma exists_of_applyRules {tried : List Rule}
    (h : applyRules t ctx tried = .ok (some (rule, lines), after)) :
    rule ∈ tried ∧ ∃ before, rule.apply t before = .ok ⟨some lines, after⟩ := by
  obtain ⟨hmem, before, -, happly⟩ := exists_accepting (P := fun _ => True) (by simp) trivial h
  exact ⟨hmem, before, happly⟩

lemma rule_eq_of_name (h : rule ∈ rules) (c : Capturing) (hname : rule.name = c.rule.name) :
    rule = c.rule := by
  have hnames : (rules.map (·.name)).Nodup := by decide
  have hmem : c.rule ∈ rules := by
    cases c with
    | elementAction => exact mem_of_getElem? (i := 2) rfl
    | assertion => exact mem_of_getElem? (i := 4) rfl
    | elementAssertion => exact mem_of_getElem? (i := 5) rfl
    | log => exact mem_of_getElem? (i := 6) rfl
    | throw => exact mem_of_getElem? (i := 11) rfl
  exact inj_on_of_nodup_map hnames h hmem hname

/-! ## Where it stands -/

lemma exists_of_captured {name args : Text} (h : c.captured? t = some (name, args)) :
    ∃ opening rest, t = opening ++ (name ++ '(' :: rest) ∧ callArguments? rest = some args ∧
      ∀ d ∈ name, isDotted d = true := by
  have hcalled : ∀ {names : List Text} {r : Text}, (∀ n ∈ names, n.all isDotted = true) →
      (calledName? names r).bind withArguments? = some (name, args) →
      ∃ rest, r = name ++ '(' :: rest ∧ callArguments? rest = some args ∧
        ∀ d ∈ name, isDotted d = true := by
    intro names r hnames h
    obtain ⟨called, hcalled, h⟩ := bind_eq_some_iff.1 h
    obtain ⟨found, harguments, hpair⟩ := map_eq_some_iff.1 h
    cases hpair
    obtain ⟨hmem, hr⟩ := calledName?_eq_some hcalled
    exact ⟨called.2, hr, harguments, all_eq_true.1 (hnames _ hmem)⟩
  cases c with
  | elementAction =>
    obtain ⟨found, hfound, hpair⟩ := map_eq_some_iff.1 h
    cases hpair
    obtain ⟨start, hstart, hread⟩ := exists_of_findSome?_eq_some hfound
    obtain ⟨call, hcall, rfl⟩ := map_eq_some_iff.1 hread
    obtain ⟨before, rfl, -⟩ := exists_precedes hstart
    obtain ⟨rest, hstart, hmethod, harguments⟩ := receiverCall?_eq_some hcall
    refine ⟨before ++ call.receiver ++ ['.'], rest, by simp [hstart], harguments, ?_⟩
    have hall : ∀ n ∈ elementActions.map (·.1), n.all isDotted = true := by decide
    exact all_eq_true.1 (hall _ hmethod)
  | elementAssertion =>
    obtain ⟨call, hcall, hpair⟩ := map_eq_some_iff.1 h
    cases hpair
    obtain ⟨rest, ht, hmethod, harguments⟩ := receiverCall?_eq_some hcall
    refine ⟨call.receiver ++ ['.'], rest, by simp [ht], harguments, ?_⟩
    have hall : ∀ n ∈ elementAssertions, n.all isDotted = true := by decide
    exact all_eq_true.1 (hall _ hmethod)
  | assertion =>
    obtain ⟨rest, hr, harguments, hdotted⟩ := hcalled (by decide) h
    cases hclass : assertionClasses.findSome? fun c => literal? (c ++ ".") t with
    | none =>
      rw [hclass] at hr
      exact ⟨[], rest, hr, harguments, hdotted⟩
    | some r =>
      rw [hclass] at hr
      obtain ⟨name', -, hread⟩ := exists_of_findSome?_eq_some hclass
      exact ⟨name' ++ ".", rest, by rw [literal?_eq_some.1 hread, ← hr]; rfl, harguments, hdotted⟩
  | log =>
    obtain ⟨rest, ht, harguments, hdotted⟩ := hcalled (by decide) h
    exact ⟨[], rest, ht, harguments, hdotted⟩
  | throw =>
    obtain ⟨⟨called, r⟩, hread, h⟩ := bind_eq_some_iff.1 h
    obtain ⟨found, harguments, hpair⟩ := map_eq_some_iff.1 h
    cases hpair
    obtain ⟨start, hstart, hread⟩ := bind_eq_some_iff.1 hread
    obtain ⟨after, hthrow, hgap⟩ := bind_eq_some_iff.1 hstart
    obtain ⟨gap, rfl, -⟩ := someBlanks?_eq_some hgap
    obtain ⟨gap', rfl, -, -, hname⟩ := constructed?_eq_some hread
    refine ⟨"throw" ++ gap ++ "new" ++ gap', r, ?_, harguments, fun d hd => ?_⟩
    · rw [literal?_eq_some.1 hthrow]
      simp
    · rw [isDotted, all_isWord hname d hd]
      rfl

/-! ## When it is complete -/

/-- **What a rule has captured** stands between the name and the end of the statement.  It is a
complete argument list without an open literal exactly if the matching parentheses are found right
there. -/
theorem captured_arguments_complete_iff {t : Text} {ctx after : Context} {rule : Rule} {lines : List Text}
    (h : applyRules t ctx rules = .ok (some (rule, lines), after)) (c : Capturing)
    (hrule : rule.name = c.rule.name) :
    ∃ opening name arguments gap ending, c.captured? t = some (name, arguments) ∧
      t = opening ++ (name ++ '(' :: (arguments ++ ')' :: (gap ++ ';' :: ending))) ∧
      (∀ d ∈ gap, isBlank d = true) ∧ atEnd ending = true ∧
      (Complete arguments ∧ Quoting.after .code arguments = .code ↔
        splitCall? (name ++ '(' :: (arguments ++ ')' :: (gap ++ [';']))) = some (name, arguments)) := by
  obtain ⟨hmem, before, happly⟩ := exists_of_applyRules h
  obtain rfl := rule_eq_of_name hmem c hrule
  obtain ⟨name, arguments, hcaptured⟩ := captured_of_accept c happly
  obtain ⟨opening, rest, ht, harguments, hdotted⟩ := exists_of_captured c hcaptured
  obtain ⟨gap, ending, rfl, hgap, hending⟩ := callArguments?_eq_some harguments
  have hcode : Quoting.after .code name = .code :=
    after_of_forall fun d hd => isQuote_of_isDotted (hdotted d hd)
  have hsplit := splitCall?_call_iff hcode hgap arguments
  rw [trim_of_dotted hdotted] at hsplit
  exact ⟨opening, name, arguments, gap, ending, hcaptured, ht, hgap, hending, hsplit.symm⟩

lemma exists_accepted {P : Text → List Text → Prop} [∀ name lines, Decidable (P name lines)]
    (h : ((applyRules t ctx rules).toOption.bind (·.1)).any (fun a => decide (P a.1.name a.2)) = true) :
    ∃ rule lines after, applyRules t ctx rules = .ok (some (rule, lines), after) ∧ P rule.name lines := by
  cases hrules : applyRules t ctx rules with
  | error fault =>
    rw [hrules] at h
    cases h
  | ok result =>
    obtain ⟨_ | ⟨rule, lines⟩, after⟩ := result
    · rw [hrules] at h
      cases h
    · rw [hrules] at h
      exact ⟨rule, lines, after, rfl, of_decide_eq_true h⟩

/-- A parenthesis in a literal and a call in the arguments do not make them incomplete. -/
theorem captured_arguments_complete_iff_nested :
    let t : Text := "log.info(\"a)\" + f(1));"
    let arguments : Text := "\"a)\" + f(1)"
    ∃ rule lines after, applyRules t {} rules = .ok (some (rule, lines), after) ∧
      rule.name = Capturing.log.rule.name ∧
      Capturing.log.captured? t = some ("log.info".toList, arguments) ∧
      Complete arguments ∧ ¬ClosedEarly arguments ∧ ¬LeftOpen arguments ∧
      ∃ gap, splitCall? ("log.info".toList ++ '(' :: (arguments ++ ')' :: (gap ++ [';']))) =
        some ("log.info".toList, arguments) := by
  intro t arguments
  obtain ⟨rule, lines, after, hrules, hname⟩ : ∃ rule lines after,
      applyRules t {} rules = .ok (some (rule, lines), after) ∧ rule.name = Capturing.log.rule.name :=
    exists_accepted (P := fun name _ => name = Capturing.log.rule.name) (by decide +kernel)
  have hcaptured : Capturing.log.captured? t = some ("log.info".toList, arguments) := by decide +kernel
  have hcomplete : Complete arguments := by decide +kernel
  have hcode : Quoting.after .code arguments = .code := by decide +kernel
  obtain ⟨opening, name, found, gap, ending, hfound, -, -, -, hiff⟩ :=
    captured_arguments_complete_iff hrules .log hname
  obtain ⟨rfl, rfl⟩ := Prod.mk.inj (Option.some.inj (hcaptured.symm.trans hfound))
  obtain ⟨hearly, hopen⟩ := (complete_iff arguments).1 hcomplete
  exact ⟨rule, lines, after, hrules, hname, hcaptured, hcomplete, hearly, hopen, gap,
    hiff.1 ⟨hcomplete, hcode⟩⟩

/-- A chained call: the log call is closed after its argument, and the rest is captured with it. -/
theorem chained_call_captured :
    let t : Text := "log.info(\"a\").foo(\"b\");"
    let arguments : Text := "\"a\").foo(\"b\""
    ∃ rule lines after, applyRules t {} rules = .ok (some (rule, lines), after) ∧
      (rule.name = Capturing.log.rule.name ∧ lines = ["console.log(\"a\").foo(\"b\");".toList]) ∧
      Capturing.log.captured? t = some ("log.info".toList, arguments) ∧
      ¬Complete arguments ∧ ClosedEarly arguments := by
  intro t arguments
  obtain ⟨rule, lines, after, hrules, haccepted⟩ : ∃ rule lines after,
      applyRules t {} rules = .ok (some (rule, lines), after) ∧
        rule.name = Capturing.log.rule.name ∧ lines = ["console.log(\"a\").foo(\"b\");".toList] :=
    exists_accepted (P := fun name lines => name = Capturing.log.rule.name ∧
      lines = ["console.log(\"a\").foo(\"b\");".toList]) (by decide +kernel)
  exact ⟨rule, lines, after, hrules, haccepted, by decide +kernel, by decide +kernel, "\"a\"",
    ".foo(\"b\"", rfl, by decide +kernel, by decide +kernel⟩

end Restage.Conversion
