import Mathlib.Data.List.Lemmas
import Restage.Proofs.Conversion.Notes
import Restage.Proofs.Conversion.StatementNames
import Restage.Proofs.Number.Overflow

/-!
# Statements that end the conversion

Almost everything that cannot be converted is left out or kept as a comment.  A duration is the
exception: a literal with too many digits, or one whose seconds are out of the range of numbers, is
a fault, and a fault ends the conversion of the whole file.

Three of the rules hand a duration over: the waits for an element, the waits on the driver and the
sleeps.  Their shapes exclude each other, so a statement has at most one duration that is looked at
(`WaitsFor`), and the statement fails exactly if that duration does (`statement_eq_error_iff`).  The
walk adds nothing to it: it fails at the first statement that does, and a file can be converted if
and only if there is none (`conversion_aborts_iff`).
-/

namespace Restage.Conversion

open Text Java TypeScript List Option

variable {n : Nat} {s : Statement} (rest : List Rule) {t : Task} {rule : Rule}

/-! ## Durations -/

/-- The digits of a duration literal that cannot be converted, and why. -/
inductive Excessive (digits : Text) : Fault → Prop
  | tooMany : maxDurationDigits < digits.length → Excessive digits (.tooManyDigits digits.length)
  | tooLarge : digits.length ≤ maxDurationDigits → Binary64.overflow * 1000 ≤ natOfDigits digits →
      Excessive digits .durationTooLarge

variable {f : Fault} {wait : DriverWait} {given before : Text}

lemma seconds_eq_error_iff :
    seconds n = .error f ↔ f = .durationTooLarge ∧ Binary64.overflow * 1000 ≤ n := by
  have hrange := Binary64.ofRatio_eq_infinite_iff false (n := n) (show 0 < 1000 by decide)
  have hcases := Binary64.ofRatio_cases false n 1000
  unfold seconds
  generalize Binary64.ofRatio false n 1000 = ratio at hrange hcases ⊢
  rcases hcases with ⟨units, rfl⟩ | rfl
  · refine iff_of_false (fun h => ?_) (fun h => ?_)
    · cases h
    · cases hrange.2 h.2
  · constructor
    · intro h
      cases h
      exact ⟨rfl, hrange.1 rfl⟩
    · rintro ⟨rfl, -⟩
      rfl

lemma duration_eq_error_iff {t : Text} :
    duration t = .error f ↔ ∃ digits, durationDigits? (trim t) = some digits ∧ Excessive digits f := by
  have hmillisecond : 1000 < Binary64.overflow * 1000 := by decide +kernel
  rw [duration]
  cases hdigits : durationDigits? (trim t) with
  | none => simp
  | some digits =>
    simp only [some.injEq, exists_eq_left']
    split_ifs with hmany hsmall
    · constructor
      · intro h
        cases h
        exact .tooMany hmany
      · intro h
        cases h with
        | tooMany _ => rfl
        | tooLarge hfew _ => exact absurd hfew (Nat.not_le_of_lt hmany)
    · constructor
      · intro h
        cases h
      · intro h
        cases h with
        | tooMany hmany' => exact absurd hmany' hmany
        | tooLarge _ hlarge => omega
    · rw [seconds_eq_error_iff]
      constructor
      · rintro ⟨rfl, hlarge⟩
        exact .tooLarge (Nat.le_of_not_lt hmany) hlarge
      · intro h
        cases h with
        | tooMany hmany' => exact absurd hmany' hmany
        | tooLarge _ hlarge => exact ⟨rfl, hlarge⟩

lemma digitValue?_lt {c : Char} (h : digitValue? c = some n) : n < 10 := by
  rw [digitValue?] at h
  split_ifs at h with hascii hdigit
  · cases h
    rw [Char.isDigit, Bool.and_eq_true, decide_eq_true_eq, decide_eq_true_eq] at hdigit
    have hle : c.toNat ≤ 57 := UInt32.le_iff_toNat_le.1 hdigit.2
    omega
  · obtain ⟨start, hstart, rfl⟩ := map_eq_some_iff.1 h
    have hrange := find?_some hstart
    rw [Bool.and_eq_true, decide_eq_true_eq, decide_eq_true_eq] at hrange
    omega

lemma natOfDigits_lt {t : Text} {k m : Nat} (h : t.length ≤ k) (hm : Nat.pow 10 k ≤ m) :
    natOfDigits t < m := by
  have hfold : ∀ (t : Text) (n : Nat),
      t.foldl (fun n c => 10 * n + (digitValue? c).getD 0) n < (n + 1) * Nat.pow 10 t.length := by
    intro t
    induction t with
    | nil =>
      intro n
      exact lt_of_lt_of_eq (Nat.lt_succ_self n) (mul_one _).symm
    | cons c t ih =>
      intro n
      have hdigit : (digitValue? c).getD 0 < 10 := by
        cases hvalue : digitValue? c with
        | none => decide
        | some value => exact digitValue?_lt hvalue
      have hpow : Nat.pow 10 (c :: t).length = Nat.pow 10 t.length * 10 := pow_succ 10 t.length
      calc t.foldl (fun n c => 10 * n + (digitValue? c).getD 0) (10 * n + (digitValue? c).getD 0)
          < (10 * n + (digitValue? c).getD 0 + 1) * Nat.pow 10 t.length := ih _
        _ ≤ (10 * (n + 1)) * Nat.pow 10 t.length := Nat.mul_le_mul_right _ (by omega)
        _ = (n + 1) * Nat.pow 10 (c :: t).length := by
            rw [hpow]
            ring
  have hzero := hfold t 0
  rw [zero_add, one_mul] at hzero
  exact lt_of_lt_of_le hzero (le_trans (Nat.pow_le_pow_right (by decide) h) hm)

lemma Excessive.length {digits : Text} (h : Excessive digits f) : 312 ≤ digits.length := by
  cases h with
  | tooMany hmany =>
    rw [maxDurationDigits] at hmany
    omega
  | tooLarge _ hlarge =>
    by_contra hshort
    have hbound : natOfDigits digits < Binary64.overflow * 1000 :=
      natOfDigits_lt (k := 311) (by omega) (by decide +kernel)
    omega

/-! ## Rules -/

section Rules

variable {t : Text} {ctx : Context} {f : Fault}

lemma ofOption_ne_error (o : Option (Text × Context)) : Verdict.ofOption ctx o ≠ .error f := by
  cases o with
  | none => exact fun h => by cases h
  | some found => exact fun h => by cases h

lemma rule_ne_error : ∀ rule ∈ rules.drop 4, ∀ t ctx f, rule.apply t ctx ≠ .error f := by
  have hchained : ∀ t ctx f, chainedPageCall t ctx ≠ .error f := by
    intro t ctx f
    rw [chainedPageCall]
    split
    · exact fun h => by cases h
    · split_ifs
      · exact ofOption_ne_error _
      · exact fun h => by cases h
  simp only [rules, drop_succ_cons, drop_zero, forall_mem_cons]
  exact ⟨fun _ _ _ => ofOption_ne_error _, fun _ _ _ => ofOption_ne_error _,
    fun _ _ _ => ofOption_ne_error _, fun _ _ _ => ofOption_ne_error _, fun _ _ _ => ofOption_ne_error _,
    fun _ _ _ => ofOption_ne_error _, hchained, fun _ _ _ => ofOption_ne_error _,
    fun _ _ _ => ofOption_ne_error _, fun _ _ _ => ofOption_ne_error _, fun _ _ _ => ofOption_ne_error _,
    by simp⟩

lemma applyRules_ne_error {tried : List Rule}
    (htried : ∀ rule ∈ tried, ∀ t ctx f, rule.apply t ctx ≠ .error f) : applyRules t ctx tried ≠ .error f := by
  induction tried generalizing ctx with
  | nil => exact fun h => by cases h
  | cons rule rest ih =>
    rw [forall_mem_cons] at htried
    rw [applyRules]
    cases hverdict : rule.apply t ctx with
    | error fault => exact absurd hverdict (htried.1 t ctx fault)
    | ok verdict =>
      dsimp only [bind, Except.bind]
      cases verdict.lines with
      | some lines => exact fun h => by cases h
      | none => exact ih htried.2

/-! ### Driver waits -/

lemma driverWait?_eq_some (h : driverWait? t = some wait) :
    ∃ gap rest : Text, gap ≠ [] ∧ (∀ c ∈ gap, isBlank c = true) ∧
      t = "new" ++ gap ++ "WebDriverWait(" ++ rest := by
  obtain ⟨start, hstart, h⟩ := bind_eq_some_iff.1 h
  obtain ⟨rest, hrest, -⟩ := bind_eq_some_iff.1 h
  obtain ⟨r, hnew, hgap⟩ := bind_eq_some_iff.1 hstart
  obtain ⟨gap, rfl, hne, hblank⟩ := someBlanks?_eq_some hgap
  refine ⟨gap, rest, hne, hblank, ?_⟩
  rw [literal?_eq_some.1 hnew, literal?_eq_some.1 hrest]
  simp

lemma element?_of_driverWait {gap rest : Text} (hne : gap ≠ []) (hgap : ∀ c ∈ gap, isBlank c = true) :
    element? ctx ("new" ++ gap ++ "WebDriverWait(" ++ rest) = none := by
  have htrim : trim ("new" ++ gap ++ "WebDriverWait(" ++ rest) =
      "new" ++ gap ++ "WebDriverWait(" ++ trimRight rest := by
    have hclose : "new" ++ gap ++ "WebDriverWait(" ++ rest =
        ("new" ++ gap ++ "WebDriverWait") ++ '(' :: rest := by simp
    have hleft : trimLeft ("new" ++ gap ++ "WebDriverWait(" ++ rest) =
        "new" ++ gap ++ "WebDriverWait(" ++ rest := rfl
    rw [trim, hleft, hclose, trimRight_append_cons (by decide)]
    simp
  obtain ⟨c, gap, rfl⟩ := exists_cons_of_ne_nil hne
  rw [forall_mem_cons] at hgap
  have hblanks : someBlanks? (c :: gap ++ "WebDriverWait(" ++ trimRight rest) =
      some ("WebDriverWait(" ++ trimRight rest) := by
    rw [append_assoc, cons_append, someBlanks?, if_pos hgap.1, blanks, dropWhile_append_of_pos hgap.2]
    rfl
  have hname : isName ("new" ++ (c :: gap) ++ "WebDriverWait(" ++ trimRight rest) = false := by
    refine Bool.eq_false_iff.2 fun hname => ?_
    have hword : isWord c = true := isWord_of_mem_name hname c (by simp)
    rw [isBlank_eq_false_of_isWord hword] at hgap
    cases hgap.1
  have haccessor : accessorName? ("new" ++ (c :: gap) ++ "WebDriverWait(" ++ trimRight rest) = none := by
    have hthis : literal? "this." ("new" ++ (c :: gap) ++ "WebDriverWait(" ++ trimRight rest) = none := rfl
    rw [accessorName?, hthis, getD_none, hname]
    rfl
  have hnew : newElement? ("new" ++ (c :: gap) ++ "WebDriverWait(" ++ trimRight rest) = none := by
    have hread : literal? "new" ("new" ++ (c :: gap) ++ "WebDriverWait(" ++ trimRight rest) =
        some (c :: gap ++ "WebDriverWait(" ++ trimRight rest) := rfl
    rw [newElement?, hread, bind_some, hblanks]
    rfl
  have hsearch : (searchOnDriver? ("new" ++ (c :: gap) ++ "WebDriverWait(" ++ trimRight rest)).or
      (byValue? ("new" ++ (c :: gap) ++ "WebDriverWait(" ++ trimRight rest)) = none := rfl
  unfold element?
  dsimp only
  rw [htrim, haccessor]
  rw [hsearch, hnew]
  rfl

lemma elementWait_of_driverWait (h : driverWait? t = some wait) :
    elementWait t ctx = Verdict.decline ctx := by
  obtain ⟨gap, rest, hne, hgap, ht⟩ := driverWait?_eq_some h
  rw [elementWait]
  split
  · rfl
  next call hcall =>
    obtain ⟨after, hcut, -, -⟩ := receiverCall?_eq_some hcall
    obtain ⟨rest', hreceiver⟩ : ∃ rest', call.receiver = "new" ++ gap ++ "WebDriverWait(" ++ rest' := by
      rcases append_eq_append_iff.1 (ht.symm.trans hcut) with ⟨rest', hstart, -⟩ | ⟨middle, hstart, hdot⟩
      · exact ⟨rest', hstart⟩
      · -- The construction of the wait has no dot that the receiver could end at.
        cases middle with
        | nil => exact ⟨[], by simpa using hstart.symm⟩
        | cons d middle =>
          obtain ⟨rfl, -⟩ := cons.inj hdot
          have hmem : '.' ∈ "new" ++ gap ++ "WebDriverWait(" := by
            rw [hstart]
            simp
          rcases mem_append.1 hmem with hmem | hmem
          · rcases mem_append.1 hmem with hmem | hmem
            · exact absurd hmem (by decide)
            · cases hgap _ hmem
          · exact absurd hmem (by decide)
    rw [hreceiver, element?_of_driverWait hne hgap]

/-! ### Sleeps -/

/-- The last two letters of the names that sleep, backwards. -/
def sleepEndings : List Text := [['p', 'e'], ['e', 's']]

lemma mem_sleepEndings_of_isSleep {callee : Text} (h : isSleep callee = true) :
    callee.reverse.take 2 ∈ sleepEndings := by
  rw [isSleep, Bool.or_eq_true] at h
  rcases h with h | h
  · have hall : ∀ name ∈ (["Thread.sleep", "QAFTestBase.pause", "pause", "sleep"] : List Text),
        name.reverse.take 2 ∈ sleepEndings := by decide
    exact hall callee (contains_iff_mem.1 h)
  · split at h
    next receiver hreceiver =>
      rw [isSleep.dropSleep] at hreceiver
      split_ifs at hreceiver with hends
      obtain ⟨before, rfl⟩ := isSuffixOf_iff_suffix.1 hends
      rw [reverse_append]
      exact mem_cons_self
    · cases h

lemma mem_sleepEndings {rest : Text} (h : sleepDuration? t = some given) (ht : t = before ++ '(' :: rest) :
    before.reverse.take 2 ∈ sleepEndings := by
  obtain ⟨⟨callee, r⟩, hcut, h⟩ := bind_eq_some_iff.1 h
  dsimp only at h
  split_ifs at h with hsleep
  obtain ⟨args, hflat, -⟩ := bind_eq_some_iff.1 h
  obtain ⟨hcallee, hfirst⟩ := cutFirst?_spec hcut
  obtain ⟨gap, ending, hr, hgap, hending, harguments⟩ := flatStatement?_eq_some hflat
  have honly : '(' ∉ r := by
    rw [hr]
    simp only [mem_append, mem_cons, not_or]
    refine ⟨fun hmem => ?_, by decide, fun hmem => ?_, by decide, fun hmem => ?_⟩
    · cases harguments _ hmem
    · cases hgap _ hmem
    · rcases atEnd_iff.1 hending with rfl | rfl
      · cases hmem
      · revert hmem
        decide
  obtain ⟨rfl, -, -⟩ := (append_cons_inj_of_notMem hfirst honly).1 (hcallee.symm.trans ht)
  exact mem_sleepEndings_of_isSleep hsleep

lemma reverse_take_append {name : Text} (h : 2 ≤ name.length) :
    (before ++ name).reverse.take 2 = name.reverse.take 2 := by
  rw [reverse_append, take_append_of_le_length (by simpa using h)]

lemma receiverCall?_of_sleep {start : Text} {names : List Text} {arguments? : Text → Option Text}
    (h : sleepDuration? t = some given) (ht : t = before ++ start)
    (hnames : ∀ name ∈ names, 2 ≤ name.length ∧ name.reverse.take 2 ∉ sleepEndings) :
    receiverCall? names arguments? start = none := by
  refine eq_none_iff_forall_ne_some.2 fun call hcall => ?_
  obtain ⟨rest, hstart, hmethod, -⟩ := receiverCall?_eq_some hcall
  obtain ⟨hlength, hending⟩ := hnames _ hmethod
  have hcut : t = (before ++ call.receiver ++ ['.']) ++ call.method ++ '(' :: rest := by
    rw [ht, hstart]
    simp
  have hsleep := mem_sleepEndings h hcut
  rw [reverse_take_append hlength] at hsleep
  exact hending hsleep

lemma decline_of_sleep (ctx : Context) (h : sleepDuration? t = some given) :
    elementWait t ctx = Verdict.decline ctx ∧ driverWait t ctx = Verdict.decline ctx ∧
      elementAction t ctx = Verdict.decline ctx := by
  refine ⟨?_, ?_, ?_⟩
  · have hnone : receiverCall? (elementWaits.map (·.1)) flatStatement? t = none :=
      receiverCall?_of_sleep h (nil_append t).symm (by decide)
    rw [elementWait, hnone]
  · have hnone : driverWait? t = none := by
      refine eq_none_iff_forall_ne_some.2 fun wait hwait => ?_
      obtain ⟨gap, rest, -, -, ht⟩ := driverWait?_eq_some hwait
      have hcut : t = ("new" ++ gap) ++ "WebDriverWait" ++ '(' :: rest := by
        rw [ht]
        simp
      have hsleep := mem_sleepEndings h hcut
      rw [reverse_take_append (by decide)] at hsleep
      revert hsleep
      decide
    rw [driverWait, hnone]
  · have hnone : elementAction? t = none := by
      refine findSome?_eq_none_iff.2 fun start hstart => ?_
      obtain ⟨before, ht, -⟩ := exists_precedes hstart
      rw [receiverCall?_of_sleep h ht (by decide)]
      rfl
    rw [elementAction, hnone]
    rfl

/-! ### The duration of a statement -/

/-- The duration that a statement waits for, as it is given. -/
inductive WaitsFor (ctx : Context) (t : Text) : Text → Prop
  | element (call : ReceiverCall) (element : Text) :
      receiverCall? (elementWaits.map (·.1)) flatStatement? t = some call →
      element? ctx call.receiver = some element → WaitsFor ctx t call.arguments
  | driver (wait : DriverWait) (state element : Text) : driverWait? t = some wait →
      Table.get? conditions wait.condition = some state →
      element? ctx wait.argument = some element → WaitsFor ctx t wait.timeout
  | sleep (given : Text) : sleepDuration? t = some given → WaitsFor ctx t given

lemma timeout?_eq_error_iff : timeout? given = .error f ↔ duration given = .error f := by
  rw [timeout?]
  split_ifs with hblank
  · refine iff_of_false (fun h => by cases h) fun h => ?_
    obtain ⟨digits, hdigits, -⟩ := duration_eq_error_iff.1 h
    have htrim : trim given = [] := by
      rw [trim, trimLeft, dropWhile_eq_nil_iff.2 (all_eq_true.1 hblank)]
      rfl
    rw [htrim] at hdigits
    cases hdigits
  · cases duration given with
    | error fault => exact ⟨fun h => by cases h; rfl, fun h => by cases h; rfl⟩
    | ok value => exact iff_of_false (fun h => by cases h) (fun h => by cases h)

lemma bind_accept_eq_error_iff {α : Type} {x : Except Fault α} {line : α → Text} {after : α → Context} :
    (x >>= fun a => Verdict.accept (line a) (after a)) = .error f ↔ x = .error f := by
  cases x with
  | error fault => exact ⟨fun h => by cases h; rfl, fun h => by cases h; rfl⟩
  | ok a => exact iff_of_false (fun h => by cases h) (fun h => by cases h)

lemma elementWait_eq_error_iff : elementWait t ctx = .error f ↔
    ∃ call element, receiverCall? (elementWaits.map (·.1)) flatStatement? t = some call ∧
      element? ctx call.receiver = some element ∧ duration call.arguments = .error f := by
  have hknown : ∀ name ∈ elementWaits.map (·.1), (Table.get? elementWaits name).isSome = true := by decide
  rw [elementWait]
  cases hcall : receiverCall? (elementWaits.map (·.1)) flatStatement? t with
  | none => exact iff_of_false (fun h => by cases h) (by simp)
  | some call =>
    obtain ⟨-, -, hmethod, -⟩ := receiverCall?_eq_some hcall
    obtain ⟨awaited, hawaited⟩ := isSome_iff_exists.1 (hknown _ hmethod)
    dsimp only
    rw [hawaited]
    cases helement : element? ctx call.receiver with
    | none =>
      refine iff_of_false (fun h => by cases h) ?_
      rintro ⟨_, _, ⟨⟩, hnone, -⟩
      rw [helement] at hnone
      cases hnone
    | some element =>
      rw [bind_accept_eq_error_iff, timeout?_eq_error_iff]
      constructor
      · exact fun h => ⟨call, element, rfl, helement, h⟩
      · rintro ⟨_, _, ⟨⟩, -, h⟩
        exact h

lemma driverWait_eq_error_iff : driverWait t ctx = .error f ↔
    ∃ wait state element, driverWait? t = some wait ∧ Table.get? conditions wait.condition = some state ∧
      element? ctx wait.argument = some element ∧ duration wait.timeout = .error f := by
  rw [driverWait]
  cases hwait : driverWait? t with
  | none => exact iff_of_false (fun h => by cases h) (by simp)
  | some wait =>
    dsimp only
    cases hstate : Table.get? conditions wait.condition with
    | none =>
      refine iff_of_false (fun h => by cases h) ?_
      rintro ⟨_, _, _, ⟨⟩, hnone, -⟩
      rw [hstate] at hnone
      cases hnone
    | some state =>
      cases helement : element? ctx wait.argument with
      | none =>
        refine iff_of_false (fun h => by cases h) ?_
        rintro ⟨_, _, _, ⟨⟩, -, hnone, -⟩
        rw [helement] at hnone
        cases hnone
      | some element =>
        rw [bind_accept_eq_error_iff]
        constructor
        · exact fun h => ⟨wait, state, element, rfl, hstate, helement, h⟩
        · rintro ⟨_, _, _, ⟨⟩, -, -, h⟩
          exact h

lemma sleep_eq_error_iff :
    sleep t ctx = .error f ↔ ∃ given, sleepDuration? t = some given ∧ duration given = .error f := by
  rw [sleep]
  cases sleepDuration? t with
  | none => exact iff_of_false (fun h => by cases h) (by simp)
  | some given =>
    rw [bind_accept_eq_error_iff]
    simp

/-- A rule that declines leaves the context as it is. -/
def Declines (ctx : Context) (x : Except Fault Verdict) : Prop :=
  Verdict.Ensures (fun v => v.lines = none → v.context = ctx) x

lemma elementWait_declines : Declines ctx (elementWait t ctx) := by
  rw [elementWait]
  split
  · exact .decline fun _ => rfl
  · split
    · exact .bind fun _ => .accept fun h => by cases h
    · exact .decline fun _ => rfl

lemma driverWait_declines : Declines ctx (driverWait t ctx) := by
  rw [driverWait]
  split
  · exact .decline fun _ => rfl
  · split
    · exact .bind fun _ => .accept fun h => by cases h
    · exact .decline fun _ => rfl

lemma elementAction_declines : Declines ctx (elementAction t ctx) :=
  .ofOption (fun _ => rfl) fun _ _ _ h => by cases h

lemma sleep_declines : Declines ctx (sleep t ctx) := by
  rw [sleep]
  split
  · exact .decline fun _ => rfl
  · exact .bind fun _ => .accept fun h => by cases h

lemma applyRules_cons_eq_error {rest : List Rule} (hrule : Declines ctx (rule.apply t ctx))
    (h : applyRules t ctx (rule :: rest) = .error f) :
    rule.apply t ctx = .error f ∨ applyRules t ctx rest = .error f := by
  rw [applyRules] at h
  cases hverdict : rule.apply t ctx with
  | error fault =>
    rw [hverdict] at h
    cases h
    exact .inl rfl
  | ok verdict =>
    rw [hverdict] at h
    dsimp only [bind, Except.bind] at h
    cases hlines : verdict.lines with
    | some lines =>
      rw [hlines] at h
      cases h
    | none =>
      rw [hlines, hrule verdict hverdict hlines] at h
      exact .inr h

lemma applyRules_cons_of_error (h : rule.apply t ctx = .error f) :
    applyRules t ctx (rule :: rest) = .error f := by
  rw [applyRules, h]
  rfl

lemma applyRules_cons_of_decline (h : rule.apply t ctx = Verdict.decline ctx) :
    applyRules t ctx (rule :: rest) = applyRules t ctx rest := by
  rw [applyRules, h]
  rfl

/-- **The rules** fail exactly on a duration that does. -/
lemma applyRules_eq_error_iff :
    applyRules t ctx rules = .error f ↔ ∃ given, WaitsFor ctx t given ∧ duration given = .error f := by
  have hrules : rules = ⟨"element_wait", .wait, elementWait⟩ :: ⟨"driver_wait", .wait, driverWait⟩ ::
      ⟨"element_action", .action, elementAction⟩ :: ⟨"sleep", .sleep, sleep⟩ :: rules.drop 4 := rfl
  rw [hrules]
  constructor
  · intro h
    rcases applyRules_cons_eq_error elementWait_declines h with h | h
    · obtain ⟨call, element, hcall, helement, h⟩ := elementWait_eq_error_iff.1 h
      exact ⟨_, .element call element hcall helement, h⟩
    rcases applyRules_cons_eq_error driverWait_declines h with h | h
    · obtain ⟨wait, state, element, hwait, hstate, helement, h⟩ := driverWait_eq_error_iff.1 h
      exact ⟨_, .driver wait state element hwait hstate helement, h⟩
    rcases applyRules_cons_eq_error elementAction_declines h with h | h
    · exact absurd h (ofOption_ne_error _)
    rcases applyRules_cons_eq_error sleep_declines h with h | h
    · obtain ⟨given, hgiven, h⟩ := sleep_eq_error_iff.1 h
      exact ⟨given, .sleep given hgiven, h⟩
    · exact absurd h (applyRules_ne_error rule_ne_error)
  · rintro ⟨given, hwaits, h⟩
    cases hwaits with
    | element call element hcall helement =>
      exact applyRules_cons_of_error _ (elementWait_eq_error_iff.2 ⟨call, element, hcall, helement, h⟩)
    | driver wait state element hwait hstate helement =>
      rw [applyRules_cons_of_decline _ (elementWait_of_driverWait hwait)]
      exact applyRules_cons_of_error _
        (driverWait_eq_error_iff.2 ⟨wait, state, element, hwait, hstate, helement, h⟩)
    | sleep given hgiven =>
      obtain ⟨hwait, hdriver, haction⟩ := decline_of_sleep ctx hgiven
      rw [applyRules_cons_of_decline _ hwait, applyRules_cons_of_decline _ hdriver,
        applyRules_cons_of_decline _ haction]
      exact applyRules_cons_of_error _ (sleep_eq_error_iff.2 ⟨given, hgiven, h⟩)

/-- **A statement** fails exactly if it is a single one that waits for a duration with excessive
digits. -/
lemma statement_eq_error_iff {line : Int} {text : Text} :
    statement line text ctx = .error f ↔ isSingle (trim text) = true ∧
      ∃ given digits, WaitsFor ctx (trim text) given ∧ durationDigits? (trim given) = some digits ∧
        Excessive digits f := by
  have hwaits : (∃ given, WaitsFor ctx (trim text) given ∧ duration given = .error f) ↔
      ∃ given digits, WaitsFor ctx (trim text) given ∧ durationDigits? (trim given) = some digits ∧
        Excessive digits f := by
    simp only [duration_eq_error_iff, exists_and_left]
  rw [← hwaits, ← applyRules_eq_error_iff]
  simp only [statement]
  split_ifs with hsingle
  · rw [hsingle]
    cases applyRules (trim text) ctx rules with
    | error fault => exact ⟨fun h => ⟨rfl, by cases h; rfl⟩, fun h => by cases h.2; rfl⟩
    | ok found =>
      refine iff_of_false (fun h => ?_) fun h => by cases h.2
      obtain ⟨_ | _, _⟩ := found <;> cases h
  · exact iff_of_false (fun h => by cases h) fun h => hsingle h.1

end Rules

/-! ## The text that a statement hands over -/

namespace Walk

/-- The body of a method that stands on one line with its header, and the context at its start. -/
def inlinePart? (w : Walk) (around : Surroundings) (info : ClassInfo) (style : Style) (sig : Signature)
    (annotations : List Text) (opened : Bool) : Option (Text × Context) :=
  let body := inlineBody (trim sig.ending)
  if sig.isConstructor ∨ trim sig.ending = ";".toList ∨ opened ∨ body.isEmpty then none
  else some (body,
    ((w.onSheet (·.blank)).startMethod around.lookup info style sig annotations).context)

/-- What a statement in the body of a class hands over: it has to be a method on one line. -/
def memberPart? (w : Walk) (around : Surroundings) (s : Statement) (info : ClassInfo) (style : Style)
    (bodyDepth : Nat) : Option (Text × Context) :=
  let (found, text) := splitAnnotations s.text
  if text.isEmpty ∨ style = .exception ∨ (classHeader? (stripGenerics text)).isSome then none
  else (signature? (some info.name) text).bind fun sig =>
    { w with pending := [] }.inlinePart? around info style sig (w.pending ++ found) (bodyDepth < w.depth)

/-- What a statement hands over, given the construct that it stands in. -/
def withinPart? (w : Walk) (around : Surroundings) (before : Nat) (s : Statement)
    (frame : Option Frame) : Option (Text × Context) :=
  if isClosersOnly s.text then none
  else match frame with
    | some ⟨.method _ _, _⟩ | some ⟨.block, _⟩ => (bodyPart? s).map (·, w.context)
    | some ⟨.classBody info style, depth⟩ =>
      if before = depth then w.memberPart? around s info style depth else none
    | _ => none

/-- The text that a statement hands over to the rules, if there is one, and the context in which
they are tried. -/
def handed (w : Walk) (around : Surroundings) (s : Statement) : Option (Text × Context) :=
  if s.isComment then none else (w.count s).withinPart? around w.depth s w.frames.head?

end Walk

/-- A part of a walk fails exactly if there is a text that is handed over and it fails. -/
def FailsWith (x : Except Fault Walk) (line : Nat) (part : Option (Text × Context)) : Prop :=
  ∀ f, x = .error f ↔ ∃ p ∈ part, statement line p.1 p.2 = .error f

namespace FailsWith

variable {around : Surroundings} {w : Walk} {s : Statement} {x : Except Fault Walk} {line : Nat}
  {part : Option (Text × Context)}

lemma never (w : Walk) (line : Nat) : FailsWith (.ok w) line none := by
  intro f
  simp

lemma convert (w : Walk) (line : Nat) (text : Text) :
    FailsWith (w.convert line text) line (some (text, w.context)) := by
  intro f
  simp only [mem_some_iff, exists_eq_left', Walk.convert]
  cases statement line text w.context with
  | error fault => exact ⟨fun h => by cases h; rfl, fun h => by cases h; rfl⟩
  | ok found => exact iff_of_false (fun h => by cases h) fun h => by cases h

lemma bind (h : FailsWith x line part) (g : Walk → Walk) :
    FailsWith (x >>= fun w => .ok (g w)) line part := by
  intro f
  rw [← h f]
  cases x with
  | error fault => exact Iff.rfl
  | ok after => exact iff_of_false (fun h => by cases h) fun h => by cases h

lemma bodyStatement (w : Walk) (s : Statement) (inBlock : Bool) :
    FailsWith (w.bodyStatement s inBlock) s.line ((Walk.bodyPart? s).map (·, w.context)) := by
  cases Walk.bodyPlace s with
  | closing _ _ hpart hwalk _ | opening _ _ hpart hwalk _ =>
    rw [hpart, hwalk]
    exact never _ _
  | other _ _ _ hwalk _ =>
    rw [hwalk]
    cases Walk.bodyPart? s with
    | none => exact never _ _
    | some part => exact convert _ _ _

lemma method (w : Walk) (around : Surroundings) (s : Statement) (info : ClassInfo) (style : Style)
    (sig : Signature) (annotations : List Text) (opened : Bool) :
    FailsWith (w.method around s info style sig annotations opened) s.line
      (w.inlinePart? around info style sig annotations opened) := by
  simp only [Walk.method, Walk.inlinePart?]
  by_cases hconstructor : sig.isConstructor = true
  · rw [if_pos hconstructor, if_pos (.inl hconstructor)]
    exact never _ _
  by_cases habstract : trim sig.ending = ";".toList
  · rw [if_neg hconstructor, if_pos habstract, if_pos (.inr (.inl habstract))]
    exact never _ _
  rw [if_neg hconstructor, if_neg habstract]
  by_cases hopened : opened = true
  · rw [if_pos hopened, if_pos (.inr (.inr (.inl hopened)))]
    exact never _ _
  rw [if_neg hopened]
  by_cases hempty : (Walk.inlineBody (trim sig.ending)).isEmpty = true
  · rw [if_pos hempty, if_pos (.inr (.inr (.inr hempty)))]
    exact never _ _
  rw [if_neg hempty, if_neg (not_or.2 ⟨hconstructor, not_or.2 ⟨habstract, not_or.2 ⟨hopened, hempty⟩⟩⟩)]
  exact (convert _ _ _).bind _

lemma member (w : Walk) (around : Surroundings) (s : Statement) (info : ClassInfo) (style : Style)
    (bodyDepth : Nat) : FailsWith (w.member around s info style bodyDepth) s.line
      (w.memberPart? around s info style bodyDepth) := by
  have hpart : w.memberPart? around s info style bodyDepth = Walk.memberCase s info style none
      (fun _ => none) ({ w with pending := [] }.inlinePart? around info style ·
        (w.pending ++ (splitAnnotations s.text).1) (bodyDepth < w.depth)) fun _ => none := by
    simp only [Walk.memberPart?, Walk.memberCase, ite_or]
    cases signature? (some info.name) (splitAnnotations s.text).2 <;> cases field? _ <;> rfl
  rw [Walk.member_eq, hpart]
  cases Walk.memberPlace s info style with
  | waiting hcase | skipped _ _ hcase | field _ _ hcase =>
    rw [hcase, hcase]
    exact never _ _
  | method sig _ _ hcase =>
    rw [hcase, hcase]
    exact method _ _ _ _ _ _ _ _

lemma within (w : Walk) (around : Surroundings) (before : Nat) (s : Statement) (frame : Option Frame) :
    FailsWith (w.within around before s frame) s.line (w.withinPart? around before s frame) := by
  unfold Walk.within Walk.withinPart?
  by_cases hclosers : Walk.isClosersOnly s.text = true
  · rw [if_pos hclosers]
    by_cases hcommented : Walk.isCommented frame = true
    · rw [if_neg fun h => by simp [hcommented] at h]
      rcases frame with _ | ⟨_ | _ | _ | _ | _, depth⟩
      all_goals first | exact never _ _ | cases hcommented
    · rw [if_pos ⟨hclosers, by simpa using hcommented⟩]
      exact never _ _
  rw [if_neg hclosers, if_neg fun h => hclosers h.1]
  rcases frame with _ | ⟨_ | ⟨info, style⟩ | ⟨name, mark⟩ | _ | _, depth⟩
  · exact never _ _
  · exact never _ _
  · dsimp only
    split_ifs
    · exact member _ _ _ _ _ _
    · exact never _ _
  · exact bodyStatement _ _ _
  · exact bodyStatement _ _ _
  · exact never _ _

end FailsWith

/-- **A statement of a file** fails exactly if what it hands over does, or if a reply that it asks
for cannot be listed. -/
lemma Walk.step_eq_error_iff {around : Surroundings} {w : Walk} :
    w.step around s = .error f ↔ (∃ p ∈ w.handed around s, statement s.line p.1 p.2 = .error f) ∨
      s.isComment = false ∧ ∃ inside,
        (w.count s).within around w.depth s w.frames.head? = .ok inside ∧
          (inside.unwind around.recognizer).broken = some f := by
  rw [step, handed]
  cases hcomment : s.isComment with
  | true => simp
  | false =>
    rw [if_neg Bool.false_ne_true, if_neg Bool.false_ne_true,
      ← FailsWith.within (w.count s) around w.depth s w.frames.head? f]
    cases (w.count s).within around w.depth s w.frames.head? with
    | error fault => simp [Bind.bind, Except.bind]
    | ok inside =>
      have hchecked : (inside.unwind around.recognizer).checked = .error f ↔
          (inside.unwind around.recognizer).broken = some f := by
        rw [checked]
        cases (inside.unwind around.recognizer).broken <;> simp
      simp [Bind.bind, Except.bind, hchecked]

/-! ## Files -/

/-- A statement that ends the conversion of a file: the walk gets to it, it is a single statement
that waits or sleeps, and the digits of its duration are excessive. -/
structure Abort (t : Task) (f : Fault) where
  seen : List Statement
  statement : Statement
  after : List Statement
  /-- The walk before the statement. -/
  walk : Walk
  text : Text
  context : Context
  duration : Text
  digits : Text
  document : t.document.statements = seen ++ statement :: after
  reached : seen.foldlM (Walk.step t.surroundings) t.start = .ok walk
  handed : walk.handed t.surroundings statement = some (text, context)
  single : isSingle (trim text) = true
  waits : WaitsFor context (trim text) duration
  written : durationDigits? (trim duration) = some digits
  excessive : Excessive digits f

/-- A walk that a reply ends has been broken by it. -/
lemma nonempty_break_of_broken {seen after : List Statement} {w inside : Walk}
    (hdocument : t.document.statements = seen ++ s :: after)
    (hreached : seen.foldlM (Walk.step t.surroundings) t.start = .ok w)
    (hcode : s.isComment = false)
    (hinside : (w.count s).within t.surroundings w.depth s w.frames.head? = .ok inside)
    (hbroken : (inside.unwind t.recognizer).broken = some f) : Nonempty (Break t f) := by
  rcases (InStep.start t t.asked).foldlM rfl (Task.start_nests _) seen with ⟨fault, -, hw⟩ | ⟨-, hrun⟩
  · cases hreached.symm.trans hw
  rcases hrun with ⟨fault, -, hw⟩ | ⟨a, w', ha, hw, hstep⟩
  · cases hreached.symm.trans hw
  obtain rfl : w = w' := Except.ok.inj (hreached.symm.trans hw)
  rcases hstep.code ((Task.start_nests _).foldlM ha) hcode with ⟨fault, -, hw⟩ | ⟨_, w', -, hw, hleft⟩
  · cases hinside.symm.trans hw
  obtain rfl : inside = w' := Except.ok.inj (hinside.symm.trans hw)
  have hvisits : t.visits = _ :=
    (congrArg (walkVisits _ t.start) hdocument).trans (walkVisits_append ha (s :: after))
  have hbreak := hleft.breaks.symm.trans hbroken
  rw [nil_append] at hbreak
  rw [nonempty_break_iff, hvisits, walkVisits, ← append_assoc, firstBreak_append, hbreak, some_or]

lemma walk_eq_error_iff :
    t.walk = .error f ↔ Nonempty (Abort t f) ∨ Nonempty (Break t f) := by
  constructor
  · intro hwalk
    obtain ⟨seen, s, after, w, hdocument, hreached, hfails⟩ := foldlM_eq_error_iff.1 hwalk
    rcases Walk.step_eq_error_iff.1 hfails with ⟨⟨text, context⟩, hhanded, hfails⟩ | hbroken
    · obtain ⟨hsingle, given, digits, hwaits, hwritten, hexcessive⟩ := statement_eq_error_iff.1 hfails
      exact .inl ⟨⟨seen, s, after, w, text, context, given, digits, hdocument, hreached, hhanded,
        hsingle, hwaits, hwritten, hexcessive⟩⟩
    · obtain ⟨hcode, inside, hinside, hbroken⟩ := hbroken
      exact .inr (nonempty_break_of_broken hdocument hreached hcode hinside hbroken)
  · rintro (⟨⟨a⟩⟩ | hbreak)
    · have hfails : statement a.statement.line a.text a.context = .error f := statement_eq_error_iff.2
        ⟨a.single, a.duration, a.digits, a.waits, a.written, a.excessive⟩
      exact foldlM_eq_error_iff.2 ⟨a.seen, a.statement, a.after, a.walk, a.document, a.reached,
        Walk.step_eq_error_iff.2 (.inl ⟨_, a.handed, hfails⟩)⟩
    · rw [nonempty_break_iff] at hbreak
      rcases t.walk_compared t.asked with ⟨fault, hfault, hwalk⟩ | ⟨hlisted, -⟩
      · obtain rfl : f = fault := some.inj (hbreak.symm.trans hfault)
        exact hwalk
      · cases hlisted.symm.trans hbreak

lemma run_eq_error_iff : t.run = .error f ↔ t.walk = .error f := by
  rw [Task.run]
  cases t.walk with
  | error fault => exact ⟨fun h => by cases h; rfl, fun h => by cases h; rfl⟩
  | ok w => exact iff_of_false (fun h => by cases h) fun h => by cases h

end Restage.Conversion
