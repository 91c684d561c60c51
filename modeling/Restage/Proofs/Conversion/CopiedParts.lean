import Restage.Proofs.Conversion.Constants
import Restage.Proofs.Conversion.Declining
import Restage.Proofs.Conversion.ExpressionReferences

/-!
# The parts of statements that come into their lines

Every rule writes a fixed frame around parts of the statement: names and callees as they stand, and
arguments and conditions as the counterparts of expressions (`Copied`).  `ruleCopies` lists the
parts for each rule.  Where there is no object, the frame does not refer to `this`, so that the line
does so exactly if one of the parts does (`rule_written`).
-/

namespace Restage.Conversion

open Text Java TypeScript List Option
open Verdict (Ensures)

variable {n : Nat} {element given : Text} (action : Text) (args : List Text)

/-! ## Copied parts -/

/-- A part of a statement that comes into its line. -/
inductive Copied where
  /-- As it stands. -/
  | plain (u : Text)
  /-- As the counterpart of an expression. -/
  | expression (u : Text)
  /-- As the name of a key, between quotes. -/
  | key (u : Text)
  deriving DecidableEq, Repr

namespace Copied

/-- The part as it stands in the statement. -/
def source : Copied → Text
  | plain u | expression u | key u => u

/-- The name of the key that an argument gives. -/
def keyOf (ctx : Context) (u : Text) : Text :=
  keyName ((literal? "Keys." (Conversion.expression ctx u)).getD [])

/-- The part as it stands in the line. -/
def text (ctx : Context) : Copied → Text
  | plain u => u
  | expression u => Conversion.expression ctx u
  | key u => "'" ++ keyOf ctx u ++ "'"

/-- The part does not get in the way of what is around it: it leaves no literal open, and so on. -/
def Steady (ctx : Context) : Copied → Prop
  | plain u => IsClosed u
  | expression u => Conversion.Steady ctx u
  | key u => isWordText (keyOf ctx u) = true

variable {ctx : Context}

lemma quiet_key {name : Text} (h : isWordText name = true) : Quiet "this" ("'" ++ name ++ "'") := by
  have hinside : ∀ u : Text, (∀ c ∈ u, isWord c = true) →
      Quoting.after (.inside '\x27') u = .inside '\x27' ∧
        maskFrom (.inside '\x27') u = replicate u.length ' ' := by
    intro u hu
    induction u with
    | nil => exact ⟨rfl, rfl⟩
    | cons c u ih =>
      rw [forall_mem_cons] at hu
      obtain ⟨hslash, hquote⟩ : c ≠ '\\' ∧ c ≠ '\x27' := by
        constructor <;> rintro rfl <;> cases hu.1
      have hstep : Quoting.step (.inside '\x27') c = .inside '\x27' := by
        rw [Quoting.step, if_neg hslash, if_neg hquote]
      have hshown : Quoting.shown (.inside '\x27') c = ' ' := by
        rw [Quoting.shown, if_neg hslash, if_neg hquote]
      rw [maskFrom_cons, Quoting.after, foldl_cons, hstep, hshown, (ih hu.2).2]
      exact ⟨(ih hu.2).1, rfl⟩
  obtain ⟨hafter, hmask⟩ := hinside name (all_isWord h)
  have hthis : "this".toList = 't' :: "his".toList := rfl
  rw [hthis, append_assoc]
  refine quiet_of_not_mem_mask (by decide) ?_ ?_
  · have hopen : Quoting.after .code "'" = .inside '\x27' := rfl
    rw [Text.IsClosed, after_append, hopen, after_append, hafter]
    rfl
  · have hshown : mask ("'" ++ (name ++ "'")) = '\x27' :: (List.replicate name.length ' ' ++ ['\x27']) := by
      have hopen : mask ("'" ++ (name ++ "'")) = '\x27' :: maskFrom (.inside '\x27') (name ++ "'") := rfl
      rw [hopen, maskFrom_append, hmask, hafter]
      rfl
    rw [hshown]
    simp

/-- **A steady part** leaves no literal open in the line, and it refers to `this` there only if it
does so in the statement. -/
lemma Steady.text (hctx : ctx.Detached) {c : Copied} (h : c.Steady ctx) :
    IsClosed (c.text ctx) ∧ (Refers "this" (c.text ctx) → Refers "this" c.source) := by
  cases c with
  | plain u => exact ⟨h, id⟩
  | expression u => exact Conversion.Steady.expression hctx h
  | key u =>
    have hquiet := quiet_key h
    exact ⟨hquiet.closed, fun href => absurd href hquiet.not_refers⟩

end Copied

/-! ## What each rule copies -/

section Copies

variable (t : Text) (ctx : Context)

/-- A duration is copied, unless it is a number. -/
def durationCopies : List Copied :=
  if allBlank t ∨ (durationDigits? (trim t)).isSome then [] else [.plain (trim t)]

/-- The arguments of a call are copied as expressions. -/
def argumentCopies : List Copied := (splitArguments t).map .expression

def elementWaitCopies : List Copied :=
  match receiverCall? (elementWaits.map (·.1)) flatStatement? t with
  | some call => durationCopies call.arguments
  | none => []

def driverWaitCopies : List Copied :=
  match driverWait? t with
  | some wait => durationCopies wait.timeout
  | none => []

/-- What precedes an element is copied if it is a variable. -/
def beforeCopies : List Copied :=
  if t.isEmpty ∨ trim t = "return".toList then []
  else match declaredVariable? (fun r => if atEnd r then some r else none) (trim t) with
    | some (_, name, _) => [.plain name]
    | none => [.plain (trim (dropEnd (fun c => c == '=' || c == ' ') (trim t)))]

/-- The arguments of an action; a key press has its key instead. -/
def actionCopies (action : Text) (args : List Text) : List Copied :=
  if action = "submit".toList then []
  else match action == "sendKeys", args with
    | true, [argument] =>
      if (literal? "Keys." (expression ctx argument)).isSome then [.key argument] else [.expression argument]
    | _, _ => args.map .expression

def elementActionCopies : List Copied :=
  match elementAction? t with
  | some found =>
    beforeCopies found.before ++ actionCopies ctx found.call.method (splitArguments found.call.arguments)
  | none => []

def sleepCopies : List Copied :=
  match sleepDuration? t with
  | some given => durationCopies given
  | none => []

/-- The element that an assertion finds visible or hidden. -/
def visibleElement? (claim : Claim) (condition : Text) : Option Text :=
  if claim = .isTrue ∨ claim = .isFalse then (visibilityRead? condition).bind (element? ctx) else none

/-- The two values of an assertion, and its message between them. -/
def comparisonCopies : List Text → List Copied
  | actual :: expected :: rest => .expression actual :: (rest.head?.toList.map .plain ++ [.expression expected])
  | _ => []

/-- The value of an assertion, unless it is whether an element is visible, and its message. -/
def valueTestCopies (claim : Claim) : List Text → List Copied
  | [] => []
  | condition :: rest =>
    (if (visibleElement? ctx claim condition).isSome then [] else [.expression condition]) ++
      rest.head?.toList.map .plain

def assertionCopies : List Copied :=
  match assertion? t with
  | some a => match a.claim with
    | .equals | .notEquals => comparisonCopies (splitArguments a.arguments)
    | claim => valueTestCopies ctx claim (splitArguments a.arguments)
  | none => []

def elementAssertionCopies : List Copied :=
  match receiverCall? elementAssertions callArguments? t with
  | some call =>
    if (softness? call.method).bind (fun found => Table.get? elementMatchers found.2) = some "toHaveText".toList then
      (argumentCopies call.arguments).take 1
    else []
  | none => []

def logCopies : List Copied :=
  match (calledName? logCallees t).bind fun called => callArguments? called.2 with
  | some args => (argumentCopies args).take 1
  | none => []

def navigateCopies : List Copied :=
  match (driver? t).bind fun r => ((literal? ".get(" r).or (literal? ".navigate().to(" r)).bind callArguments? with
  | some address => [.expression address]
  | none => []

def newPageCopies : List Copied :=
  match newObject? t with
  | some found => [.plain found.name, .plain found.className]
  | none => []

def chainedCopies : List Copied :=
  match chainedCall? t with
  | some (className, call) => match splitCall? (call ++ ";") with
    | some (callee, args) => .plain className :: .plain callee :: argumentCopies args
    | none => []
  | none => []

def thrownCopies : List Copied :=
  match ((literal? "throw" t).bind someBlanks?).bind constructed? with
  | some (name, r) => match callArguments? r with
    | some args =>
      (if ctx.project.any fun p => (p.roles name).isException then [.plain name] else []) ++
        argumentCopies args
    | none => []
  | none => []

def returnedCopies : List Copied :=
  match returned? t with
  | some value =>
    if value.isEmpty then []
    else if isLiteral value ∨ ctx.scope.contains value then [.plain value]
    else (newExpression? value).toList.map .plain
  | none => []

def literalCopies : List Copied :=
  match initialised? t with
  | some found => [.plain found.name, .plain (plainLiteral (trim found.value))]
  | none => []

/-- What is called on the class itself: a function, or a method behind the name of the class. -/
def ownCalleeCopies (name : Text) : List Copied :=
  if ctx.functions.contains name then [.plain name]
  else match ctx.className with
    | some className => [.plain className, .plain name]
    | none => []

def calledCopies : List Copied :=
  match (callStatement? t).bind splitCall? with
  | some (callee, raw) =>
    let (receiver, name) := receiverAndName callee
    (if receiver = [] ∨ receiver = "this".toList then ownCalleeCopies ctx name
      else [.plain receiver, .plain name]) ++ argumentCopies raw
  | none => []

end Copies

def copyingRules : Table (Text → Context → List Copied) :=
  [("element_wait", fun t _ => elementWaitCopies t), ("driver_wait", fun t _ => driverWaitCopies t),
   ("element_action", elementActionCopies), ("sleep", fun t _ => sleepCopies t),
   ("assertion", assertionCopies), ("element_assertion", fun t _ => elementAssertionCopies t),
   ("log", fun t _ => logCopies t), ("navigate", fun t _ => navigateCopies t),
   ("new_page_object", fun t _ => newPageCopies t), ("chained_page_call", fun t _ => chainedCopies t),
   ("throw", thrownCopies), ("return", returnedCopies),
   ("literal_declaration", fun t _ => literalCopies t), ("generic_call", calledCopies)]

def ruleCopies (rule t : Text) (ctx : Context) : List Copied :=
  ((copyingRules.get? rule).map (· t ctx)).getD []

/-! ## Frames -/

/-- A fixed piece that can stand in front of a part. -/
def Leads (c : Text) : Prop := IsClosed c ∧ ¬"this".toList <:+: c ∧ ∀ d ∈ c.getLast?, isWord d = false

/-- A fixed piece that can stand behind a part. -/
def Trails (c : Text) : Prop := IsClosed c ∧ ¬"this".toList <:+: c ∧ ∀ d ∈ c.head?, isWord d = false

instance (c : Text) : Decidable (Leads c) := inferInstanceAs (Decidable (_ ∧ _))

instance (c : Text) : Decidable (Trails c) := inferInstanceAs (Decidable (_ ∧ _))

section Frames

variable {parts : List Text} {c p t u : Text}

lemma head_append (hc : c.head?.any (!isWord ·) = true) (u : Text) : ∀ d ∈ (c ++ u).head?, isWord d = false := by
  cases c with
  | nil => cases hc
  | cons e c =>
    simpa using hc

lemma composed_lead (hc : Leads c) (hu : Composed "this" parts u) : Composed "this" parts (c ++ u) :=
  hu.lead isWordText_this c hc.1 hc.2.1 hc.2.2

lemma composed_trail (hu : Composed "this" parts u) (hc : Trails c) : Composed "this" parts (u ++ c) := by
  have h := hu.append isWordText_this (.fixed hc.1 hc.2.1) (.inr hc.2.2)
  rwa [append_nil] at h

lemma composed_next (hu : Composed "this" parts u) (hhead : ∀ d ∈ u.head?, isWord d = false) :
    Composed "this" (p :: parts) (p ++ u) :=
  hu.next isWordText_this p hhead

lemma composed_part (hc : Leads c) (hhead : c.head?.any (!isWord ·) = true) (hu : Composed "this" parts u) :
    Composed "this" (p :: parts) (p ++ (c ++ u)) :=
  composed_next (composed_lead hc hu) (head_append hhead u)

lemma composed_join (parts : List Text) : Composed "this" parts (join ", " parts) :=
  .join isWordText_this (by decide) parts

lemma written_lead (hc : Leads c) (hu : Written "this" parts u) : Written "this" parts (c ++ u) :=
  hu.behind isWordText_this (quiet_fixed ⟨hc.1, hc.2.1⟩) (.inl hc.2.2)

lemma written_behind (ht : Quiet "this" t) (hu : Written "this" parts u)
    (hhead : ∀ d ∈ u.head?, isWord d = false) : Written "this" parts (t ++ u) :=
  hu.behind isWordText_this ht (.inr hhead)

end Frames

/-! ## What each rule writes -/

/-- The lines of a verdict have the word because of the given parts. -/
def Verdict.Copies (parts : List Text) (v : Verdict) : Prop :=
  ∀ lines, v.lines = some lines → ∀ line ∈ lines, Written "this" parts line

namespace Verdict.Copies

variable {parts : List Text} {ctx : Context}

lemma declined : Copies parts ⟨none, ctx⟩ := by
  rintro _ ⟨⟩

lemma one {line : Text} (hline : Written "this" parts line) : Copies parts ⟨some [line], ctx⟩ := by
  rintro _ ⟨⟩
  exact forall_mem_singleton.2 hline

end Verdict.Copies

variable {u : Text} {timeout : Option Text}

section Rules

open Verdict (Copies)
open Verdict.Copies (declined one)

variable {t : Text} {parts : List Text} {ctx : Context} (soft : Bool) (message : Option Text)

/-! ### Waits and sleeps -/

lemma composed_number {n : Text} (h : ∀ c ∈ n, c.isDigit = true ∨ c = '.') : Composed "this" [] n := by
  have hother : ∀ c, c.isDigit = false → c ≠ '.' → c ∉ n := by
    intro c hc hdot hmem
    rcases h c hmem with hdigit | rfl
    · rw [hc] at hdigit
      cases hdigit
    · exact hdot rfl
  refine .fixed (after_of_forall fun c hc => Bool.eq_false_iff.2 fun hquote => ?_) fun hthis => ?_
  · rw [isQuote, Bool.or_eq_true, Bool.or_eq_true, beq_iff_eq, beq_iff_eq, beq_iff_eq] at hquote
    rcases hquote with (rfl | rfl) | rfl <;> exact hother _ (by decide) (by decide) hc
  · exact hother 't' (by decide) (by decide) (hthis.subset (by decide))

lemma isDigit_of_mem_ofNat {c : Char} (h : c ∈ ofNat n) : c.isDigit = true :=
  Nat.isDigit_of_mem_toDigits (by decide) (by decide) h

lemma number_positional (d : Decimal) : ∀ c ∈ d.positional, c.isDigit = true ∨ c = '.' := by
  intro c hc
  rw [Decimal.positional] at hc
  split_ifs at hc
  · simp only [mem_append, mem_replicate] at hc
    rcases hc with ((hc | hc) | hc) | hc
    · exact .inl (isDigit_of_mem_ofNat hc)
    · exact .inr (mem_singleton.1 hc)
    · rw [hc.2]
      exact .inl (by decide)
    · exact .inl (isDigit_of_mem_ofNat hc)
  · exact .inl (isDigit_of_mem_ofNat hc)

lemma number_seconds (h : seconds n = .ok given) :
    ∀ c ∈ given, c.isDigit = true ∨ c = '.' := by
  unfold seconds at h
  generalize Binary64.ofRatio false n 1000 = quotient at h
  cases quotient with
  | finite negative units =>
    obtain rfl := Except.ok.inj h
    split_ifs
    · exact fun c hc => .inl (isDigit_of_mem_ofNat hc)
    · exact number_positional _
  | _ => cases h

lemma composed_duration (ctx : Context) (h : duration u = .ok given) :
    Composed "this" ((durationCopies u).map (Copied.text ctx)) given := by
  rw [durationCopies]
  unfold duration at h
  dsimp only at h
  cases hdigits : durationDigits? (trim u) with
  | none =>
    rw [hdigits] at h
    cases h
    by_cases hblank : allBlank u = true
    · rw [if_pos (.inl hblank), trim_of_allBlank hblank]
      exact .fixed rfl (by decide)
    · rw [if_neg (by simp [hblank])]
      exact .part _
  | some digits =>
    rw [hdigits] at h
    rw [if_pos (.inr rfl)]
    refine composed_number ?_
    dsimp only at h
    split_ifs at h
    · obtain rfl := Except.ok.inj h
      exact fun c hc => .inl (isDigit_of_mem_ofNat hc)
    · exact number_seconds h

lemma composed_limit (h : Composed "this" parts (timeout.getD [])) (before after : Text)
    (hbefore : Leads before) (hafter : Trails after) :
    Composed "this" parts
      ((((timeout.filter (!·.isEmpty)).map fun (t : Text) => (before ++ t : List Char)).getD []) ++ after) := by
  rcases timeout with _ | _ | ⟨c, r⟩
  · exact composed_trail h hafter
  · exact composed_trail h hafter
  · have hline := composed_lead hbefore (composed_trail h hafter)
    rwa [← append_assoc] at hline

lemma written_state {state : Text} (helement : Quiet "this" element)
    (hstate : Leads (".waitFor(\x7b state: '" ++ (state ++ "'")))
    (htimeout : Composed "this" parts (timeout.getD [])) :
    Written "this" parts (waitLine element (.state state) timeout) := by
  have hlimit := composed_lead hstate (composed_limit htimeout ", timeout: " " \x7d);" (by decide) (by decide))
  unfold waitLine
  simp only [append_assoc] at hlimit ⊢
  exact written_lead (by decide) (written_behind helement (.of_composed hlimit) (head_append (by decide) _))

lemma written_expectation {matcher : Text} (helement : Quiet "this" element)
    (hmatcher : Leads (")." ++ (matcher ++ "(")))
    (htimeout : Composed "this" parts (timeout.getD [])) :
    Written "this" parts (waitLine element (.expectation matcher) timeout) := by
  have hlimit : Composed "this" parts
      ((((timeout.filter (!·.isEmpty)).map fun (t : Text) => "\x7b timeout: " ++ t ++ " \x7d").getD []) ++ ");") := by
    rcases timeout with _ | _ | ⟨c, r⟩
    · exact composed_trail htimeout (by decide)
    · exact composed_trail htimeout (by decide)
    · refine composed_trail (c := ");") ?_ (by decide)
      exact composed_trail (composed_lead (by decide) htimeout) (by decide)
  have hlimit := composed_lead hmatcher hlimit
  unfold waitLine
  simp only [append_assoc] at hlimit ⊢
  exact written_lead (by decide) (written_behind helement (.of_composed hlimit) (head_append (by decide) _))

lemma elementWait_written (h : ctx.Detached) :
    Ensures (Copies ((elementWaitCopies t).map (Copied.text ctx))) (elementWait t ctx) := by
  rw [elementWait, elementWaitCopies]
  cases receiverCall? (elementWaits.map (·.1)) flatStatement? t with
  | none => exact .decline declined
  | some call =>
    dsimp only
    split
    next element awaited helement hawaited =>
      have hquiet := h.quiet_element helement
      refine .bind_ok fun timeout htimeout => .accept (one ?_)
      have hcomposed : Composed "this" ((durationCopies call.arguments).map (Copied.text ctx))
          (timeout.getD []) := by
        rw [timeout?] at htimeout
        split_ifs at htimeout with hblank
        · cases htimeout
          rw [durationCopies, if_pos (.inl hblank)]
          exact .fixed rfl (by decide)
        · cases hduration : duration call.arguments with
          | error fault =>
            rw [hduration] at htimeout
            cases htimeout
          | ok given =>
            rw [hduration] at htimeout
            cases htimeout
            exact composed_duration ctx hduration
      have hall : ∀ awaited ∈ elementWaits.map (·.2), Written "this"
          ((durationCopies call.arguments).map (Copied.text ctx)) (waitLine element awaited timeout) := by
        simp only [elementWaits, map_cons, forall_mem_cons]
        exact ⟨written_state hquiet (by decide) hcomposed, written_state hquiet (by decide) hcomposed,
          written_state hquiet (by decide) hcomposed, written_state hquiet (by decide) hcomposed,
          written_expectation hquiet (by decide) hcomposed, written_expectation hquiet (by decide) hcomposed,
          by simp⟩
      exact hall awaited (Lookup.mem_of_table_get? hawaited)
    · exact .decline declined

lemma driverWait_written (h : ctx.Detached) :
    Ensures (Copies ((driverWaitCopies t).map (Copied.text ctx))) (driverWait t ctx) := by
  rw [driverWait, driverWaitCopies]
  cases driverWait? t with
  | none => exact .decline declined
  | some wait =>
    dsimp only
    split
    next state element hstate helement =>
      refine .bind_ok fun given hgiven => .accept (one ?_)
      have hall : ∀ state ∈ conditions.map (·.2), Leads (".waitFor(\x7b state: '" ++ (state ++ "'")) := by decide
      exact written_state (h.quiet_element helement) (hall state (Lookup.mem_of_table_get? hstate))
        (composed_duration ctx hgiven)
    · exact .decline declined

lemma sleep_written (h : ctx.Detached) :
    Ensures (Copies ((sleepCopies t).map (Copied.text ctx))) (sleep t ctx) := by
  rw [sleep, sleepCopies]
  cases sleepDuration? t with
  | none => exact .decline declined
  | some given =>
    refine .bind_ok fun given' hgiven => .accept (one (.of_composed ?_))
    rw [h.page, append_assoc]
    exact composed_lead (by decide) (composed_trail (composed_duration ctx hgiven) (by decide))

/-! ### Actions -/

lemma isClosed_of_dotted (h : ∀ c ∈ u, isDotted c = true) : IsClosed u :=
  after_of_forall fun c hc => isQuote_of_isDotted (h c hc)

lemma written_before (ctx : Context) {before : Text} (hbefore : Precedes before)
    (hu : Written "this" parts u) :
    Written "this" ((beforeCopies before).map (Copied.text ctx) ++ parts) ((convertBefore before ctx).1 ++ u) := by
  rw [convertBefore, beforeCopies]
  by_cases hempty : before.isEmpty = true
  · rw [if_pos hempty, if_pos (.inl hempty)]
    exact hu
  by_cases hreturn : trim before = "return".toList
  · rw [if_neg hempty, if_pos hreturn, if_pos (.inr hreturn)]
    exact written_lead (c := "return ") (by decide) hu
  rw [if_neg hempty, if_neg hreturn, if_neg (not_or.2 ⟨hempty, hreturn⟩)]
  have hassigned : ∀ {name : Text}, IsClosed name → Written "this" (name :: parts) (name ++ (" = " ++ u)) := by
    intro name hname
    exact (written_lead (c := " = ") (by decide) hu).behind_part isWordText_this hname
      (.inr (head_append (by decide) u))
  cases hdeclared : declaredVariable? (fun r => if atEnd r then some r else none) (trim before) with
  | some found =>
    have hname := (declaredVariable?_word hdeclared).word
    have hline := written_lead (c := "const ") (by decide)
      (hassigned (isClosed_of_dotted (isDotted_of_isWord (all_isWord hname))))
    simpa [Copied.text] using hline
  | none =>
    rw [append_assoc]
    exact hassigned (isClosed_of_dotted (hbefore.assigned hempty hreturn hdeclared))

lemma map_argumentCopies (ctx : Context) (u : Text) :
    (argumentCopies u).map (Copied.text ctx) = convertedArguments ctx u := by
  rw [argumentCopies, List.map_map]
  rfl

lemma leads_action :
    Leads ("." ++ ((actionCall action args).1 ++ "(")) := by
  have hmethod : Leads ("." ++ ((Table.get? elementActions action).getD [] ++ "(")) := by
    cases hget : Table.get? elementActions action with
    | none => decide
    | some method =>
      have hall : ∀ method ∈ elementActions.map (·.2), Leads ("." ++ (method ++ "(")) := by decide
      exact hall method (Lookup.mem_of_table_get? hget)
  unfold actionCall
  split_ifs
  · exact hmethod
  split
  · split
    · have hpress : Leads ("." ++ ("press" ++ "(")) := by decide
      exact hpress
    · exact hmethod
  · exact hmethod

lemma composed_action (ctx : Context) (action : Text) (args : List Text) :
    Composed "this" ((actionCopies ctx action args).map (Copied.text ctx))
      (join ", " (actionCall action (args.map (expression ctx))).2) := by
  have hplain : Composed "this" ((args.map Copied.expression).map (Copied.text ctx))
      (join ", " (args.map (expression ctx))) := by
    rw [List.map_map]
    exact composed_join _
  unfold actionCall actionCopies
  split_ifs with hsubmit
  · exact .fixed (t := "'Enter'") (by decide) (by decide)
  cases action == "sendKeys" with
  | false => exact hplain
  | true =>
    rcases args with _ | ⟨argument, _ | ⟨_, _⟩⟩
    · exact hplain
    · simp only [map_cons, map_nil]
      cases hkey : literal? "Keys." (expression ctx argument) with
      | none => exact hplain
      | some key =>
        have htext : Copied.text ctx (.key argument) = "'" ++ keyName key ++ "'" := by
          rw [Copied.text, Copied.keyOf, hkey]
          rfl
        have hline := composed_join [Copied.text ctx (.key argument)]
        rw [htext] at hline
        rw [if_pos isSome_some, map_cons, htext]
        exact hline
    · exact hplain

lemma elementAction_written (h : ctx.Detached) :
    Ensures (Copies ((elementActionCopies t ctx).map (Copied.text ctx))) (elementAction t ctx) := by
  refine .ofOption declined <| .bind fun found hfound => .bind fun element helement => .some (one ?_)
  rw [elementActionCopies, hfound]
  obtain ⟨start, hstart, hread⟩ := exists_of_findSome?_eq_some hfound
  obtain ⟨call, -, rfl⟩ := map_eq_some_iff.1 hread
  obtain ⟨before, rfl, hbefore⟩ := exists_precedes hstart
  have hlisted := composed_lead (leads_action call.method (convertedArguments ctx call.arguments))
    (composed_trail (composed_action ctx call.method (splitArguments call.arguments)) (c := ");") (by decide))
  rw [consumed_append, map_append]
  simp only [append_assoc] at hlisted ⊢
  exact written_before ctx hbefore (written_lead (by decide)
    (written_behind (h.quiet_element helement) (.of_composed hlisted) (head_append (by decide) _)))

/-! ### Assertions -/

/-- Every acceptance has a line that is written from the given parts. -/
abbrev SaysCopies (parts : List Text) : Option (Text × Context) → Prop :=
  Says fun line after => Copies parts ⟨some [line], after⟩

lemma leads_expectation :
    Leads (expectation soft ++ "(") ∧ Leads ("await " ++ (expectation soft ++ "(")) := by
  revert soft
  decide

lemma composed_message (hu : Composed "this" parts u)
    (hhead : ∀ d ∈ u.head?, isWord d = false) :
    Composed "this" (message.toList ++ parts) (((message.map fun (m : Text) => ", " ++ m).getD []) ++ u) ∧
      ∀ d ∈ (((message.map fun (m : Text) => ", " ++ m).getD []) ++ u).head?, isWord d = false := by
  cases message with
  | none => exact ⟨hu, hhead⟩
  | some m =>
    dsimp only [map_some, getD_some]
    rw [append_assoc]
    exact ⟨composed_lead (by decide) (composed_next hu hhead), head_append (by decide) _⟩

lemma map_plain_toList : (message.toList.map Copied.plain).map (Copied.text ctx) = message.toList := by
  cases message <;> rfl

lemma comparison?_written (negated : Bool) (args : List Text) :
    SaysCopies ((comparisonCopies args).map (Copied.text ctx)) (comparison? ctx soft negated args) := by
  rcases args with _ | ⟨actual, _ | ⟨expected, rest⟩⟩
  · exact .none
  · exact .none
  refine .some (one (.of_composed ?_))
  have hmatcher : Leads (")" ++ ((if negated then ".not" else [] : Text) ++ ".toBe(")) := by
    revert negated
    decide
  have hexpected := composed_lead hmatcher
    (composed_trail (.part (expression ctx expected)) (c := ");") (by decide))
  obtain ⟨hmessage, hhead⟩ := composed_message rest.head? hexpected
    (by rw [append_assoc]; exact head_append (by decide) _)
  have hline := composed_lead (leads_expectation soft).1
    (composed_next (p := expression ctx actual) hmessage hhead)
  rw [comparisonCopies, map_cons, map_append, map_plain_toList]
  simp only [append_assoc] at hline ⊢
  exact hline

lemma visibility?_written (h : ctx.Detached) (soft : Bool) (claim : Claim) (condition : Text)
    (message : Option Text) :
    SaysCopies message.toList
      (visibility? ctx soft claim condition ((message.map fun (m : Text) => ", " ++ m).getD [])) := by
  have hvisible : ∀ (matcher : Text), Trails (")." ++ (matcher ++ "();")) → ∀ element, Quiet "this" element →
      Written "this" message.toList ("await " ++ expectation soft ++ "(" ++ element ++
        (message.map fun (m : Text) => ", " ++ m).getD [] ++ ")." ++ matcher ++ "();") := by
    intro matcher hmatcher element helement
    obtain ⟨hmessage, hhead⟩ := composed_message message (.fixed hmatcher.1 hmatcher.2.1) hmatcher.2.2
    have hline := written_lead (leads_expectation soft).2 (written_behind helement (.of_composed hmessage) hhead)
    simp only [append_assoc, append_nil] at hline ⊢
    exact hline
  cases claim with
  | isTrue =>
    refine .bind fun target _ => .bind fun element helement => .some (one ?_)
    exact hvisible "toBeVisible" (by decide) element (h.quiet_element helement)
  | isFalse =>
    refine .bind fun target _ => .bind fun element helement => .some (one ?_)
    exact hvisible "toBeHidden" (by decide) element (h.quiet_element helement)
  | equals | notEquals | isNull | isNotNull => exact .none

lemma isSome_visibility? (claim : Claim) (condition message : Text) :
    (visibility? ctx soft claim condition message).isSome = (visibleElement? ctx claim condition).isSome := by
  unfold visibility? visibleElement?
  cases claim with
  | isTrue | isFalse =>
    cases visibilityRead? condition with
    | none => rfl
    | some target => cases helement : element? ctx target <;> simp [helement]
  | equals | notEquals | isNull | isNotNull => rfl

lemma valueTest?_written (h : ctx.Detached) (soft : Bool) (claim : Claim) (args : List Text) :
    SaysCopies ((valueTestCopies ctx claim args).map (Copied.text ctx)) (valueTest? ctx soft claim args) := by
  cases args with
  | nil => exact .none
  | cons condition rest =>
    have hwritten := visibility?_written h soft claim condition rest.head?
    rw [valueTestCopies, map_append, map_plain_toList, valueTest?,
      ← isSome_visibility? soft claim condition ((rest.head?.map fun (m : Text) => ", " ++ m).getD [])]
    cases hvisible : visibility? ctx soft claim condition
      ((rest.head?.map fun (m : Text) => ", " ++ m).getD []) with
    | some found =>
      rw [hvisible] at hwritten
      exact hwritten
    | none =>
      have hmatcher : Trails (")." ++ (valueMatcher claim ++ ";")) := by cases claim <;> decide
      obtain ⟨hmessage, hhead⟩ := composed_message rest.head? (.fixed hmatcher.1 hmatcher.2.1) hmatcher.2.2
      have hline := composed_lead (leads_expectation soft).1
        (composed_next (p := expression ctx condition) hmessage hhead)
      refine .some (one (.of_composed ?_))
      simp only [append_assoc, append_nil] at hline ⊢
      exact hline

lemma assertion_written (h : ctx.Detached) :
    Ensures (Copies ((assertionCopies t ctx).map (Copied.text ctx))) (assertion t ctx) := by
  refine .ofOption declined (.bind fun a ha => ?_)
  rw [assertionCopies, ha]
  dsimp only
  cases a.claim with
  | equals => exact comparison?_written _ _ _
  | notEquals => exact comparison?_written _ _ _
  | isTrue | isFalse | isNull | isNotNull => exact valueTest?_written h _ _ _

lemma composed_first (ctx : Context) (args : List Text) :
    Composed "this" (((args.map Copied.expression).take 1).map (Copied.text ctx))
      ((args.head?.map (expression ctx)).getD []) := by
  cases args with
  | nil => exact .fixed (t := []) rfl (by decide)
  | cons argument _ => exact .part _

lemma elementAssertion_written (h : ctx.Detached) :
    Ensures (Copies ((elementAssertionCopies t).map (Copied.text ctx))) (elementAssertion t ctx) := by
  refine .ofOption declined <| .bind fun call hcall => .bind fun element helement => .bind fun found hfound =>
    .bind fun matcher hmatcher => .some (one ?_)
  rw [elementAssertionCopies, hcall]
  dsimp only
  rw [hfound, bind_some, hmatcher]
  have harguments : Composed "this"
      ((if some matcher = some "toHaveText".toList then (argumentCopies call.arguments).take 1 else []).map
        (Copied.text ctx))
      (join ", " (if matcher = "toHaveText".toList then (convertedArguments ctx call.arguments).take 1 else [])) := by
    simp only [some_inj]
    split_ifs
    · rw [← map_argumentCopies, map_take]
      exact composed_join _
    · exact .fixed rfl (by decide)
  have hall : ∀ matcher ∈ elementMatchers.map (·.2), Leads (")." ++ (matcher ++ "(")) := by decide
  have hmatched := composed_lead (hall matcher (Lookup.mem_of_table_get? hmatcher))
    (composed_trail harguments (c := ");") (by decide))
  have hline := written_lead (leads_expectation found.1).2 (written_behind (h.quiet_element helement)
    (.of_composed hmatched) (by rw [append_assoc]; exact head_append (by decide) _))
  simp only [append_assoc] at hline ⊢
  exact hline

/-! ### Logging and navigation -/

lemma log_written : Ensures (Copies ((logCopies t).map (Copied.text ctx))) (log t ctx) := by
  refine .ofOption declined <| .bind fun called hcalled => .bind fun args harguments =>
    .some (one (.of_composed ?_))
  rw [logCopies, hcalled, bind_some, harguments]
  rw [append_assoc]
  exact composed_lead (by decide) (composed_trail (composed_first ctx (splitArguments args)) (by decide))

lemma navigate_written (h : ctx.Detached) :
    Ensures (Copies ((navigateCopies t).map (Copied.text ctx))) (navigate t ctx) := by
  refine .ofOption declined <| .bind fun r hr => .bind fun r' hr' => .bind fun address haddress =>
    .some (one (.of_composed ?_))
  have haddress := (filter_eq_some_iff.1 haddress).1
  rw [navigateCopies, hr, bind_some, hr', bind_some, haddress, h.page]
  rw [append_assoc]
  exact composed_lead (by decide) (composed_trail (.part _) (by decide))

lemma history_written (h : ctx.Detached) : Ensures (Copies []) (history t ctx) := by
  refine .ofOption declined <| .bind fun r _ => .bind fun found hfound => .bind fun _ _ =>
    .ite (fun _ => .some (one (.of_composed ?_))) fun _ => .none
  obtain ⟨move, hmove, hread⟩ := exists_of_findSome?_eq_some hfound
  obtain ⟨_, -, rfl⟩ := map_eq_some_iff.1 hread
  have hall : ∀ move ∈ historyMoves, Leads ("await " ++ "page" ++ "." ++ move.2 ++ "();") := by decide
  rw [h.page]
  exact .fixed (hall move hmove).1 (hall move hmove).2.1

/-! ### Page objects -/

lemma composed_call (callee : Text) (args : List Text) :
    Composed "this" (callee :: args) (callee ++ ("(" ++ (join ", " args ++ ");"))) :=
  composed_part (by decide) (by decide) (composed_trail (composed_join args) (by decide))

lemma newPageObject_written (h : ctx.Detached) :
    Ensures (Copies ((newPageCopies t).map (Copied.text ctx))) (newPageObject t ctx) := by
  refine .ofOption declined <| .bind fun found hfound =>
    .ite (fun _ => .some (one (.of_composed ?_))) fun _ => .none
  rw [newPageCopies, hfound, h.page]
  have hkeyword : Leads (if found.typed then "const " else [] : Text) := by cases found.typed <;> decide
  simp only [append_assoc]
  exact composed_lead hkeyword
    (composed_part (by decide) (by decide) (composed_trail (.part _) (by decide)))

lemma Copied.text_importClass (ctx : Context) (name : Text) (c : Copied) :
    c.text (ctx.importClass name) = c.text ctx := by
  rw [Context.importClass]
  split
  · cases c <;> rfl
  · rfl

lemma chainedPageCall_written (h : ctx.Detached) :
    Ensures (Copies ((chainedCopies t).map (Copied.text ctx))) (chainedPageCall t ctx) := by
  rw [chainedPageCall, chainedCopies]
  cases chainedCall? t with
  | none => exact .decline declined
  | some found =>
    dsimp only
    split_ifs
    · refine .ofOption declined (.bind fun call hcall => .some (one (.of_composed ?_)))
      rw [hcall]
      have hpage : (ctx.importClass found.1).pageRef = "page" := by
        rw [Context.importClass]
        split <;> exact h.page
      have hline := composed_lead (c := "await new ") (by decide) (composed_part (c := "(" ++ "page" ++ ").")
        (p := found.1) (by decide) (by decide) (composed_call call.1 (convertedArguments (ctx.importClass found.1) call.2)))
      rw [hpage, ← funext (Copied.text_importClass ctx found.1), map_cons, map_cons, map_argumentCopies]
      simp only [append_assoc] at hline ⊢
      exact hline
    · exact .decline declined

/-! ### Exceptions, returns and declarations -/

lemma throw_written : Ensures (Copies ((thrownCopies t ctx).map (Copied.text ctx))) (throw t ctx) := by
  refine .ofOption declined <| .bind fun found hfound => .bind fun args harguments => ?_
  rw [thrownCopies, hfound]
  dsimp only
  rw [harguments]
  dsimp only
  split_ifs
  · refine .some (one (.of_composed ?_))
    rw [map_append, map_argumentCopies]
    simp only [append_assoc]
    exact composed_lead (by decide) (composed_call _ _)
  · refine .some (one (.of_composed ?_))
    rw [nil_append, map_argumentCopies]
    simp only [append_assoc]
    exact composed_lead (by decide) (composed_trail (composed_join _) (by decide))

lemma returns_written (h : ctx.Detached) :
    Ensures (Copies ((returnedCopies t ctx).map (Copied.text ctx))) (returns t ctx) := by
  refine .ofOption declined (.bind fun value hvalue => ?_)
  rw [returnedCopies, hvalue, h.self, h.page]
  dsimp only
  split_ifs with hempty hplain hself hself
  · exact .some (one (.of_composed (.fixed (by decide) (by decide))))
  · cases hself.2
  · refine .some (one (.of_composed ?_))
    rw [append_assoc]
    exact composed_lead (by decide) (composed_trail (.part value) (by decide))
  · cases hself.2
  · refine .bind fun name hname => .ite (fun _ => .some (one (.of_composed ?_))) fun _ => .none
    rw [hname]
    simp only [append_assoc]
    exact composed_lead (by decide) (composed_trail (.part name) (by decide))

lemma literalDeclaration_written :
    Ensures (Copies ((literalCopies t).map (Copied.text ctx))) (literalDeclaration t ctx) := by
  refine .ofOption declined <| .bind fun found hfound =>
    .ite (fun _ => .some (one (.of_composed ?_))) fun _ => .none
  rw [literalCopies, hfound]
  simp only [append_assoc]
  exact composed_lead (by decide)
    (composed_part (by decide) (by decide) (composed_trail (.part _) (by decide)))

/-! ### Calls -/

lemma composed_withPage :
    Composed "this" args (join ", " ("page" :: args)) := by
  cases args with
  | nil => exact .fixed (t := "page") (by decide) (by decide)
  | cons argument rest =>
    have hjoin : join ", " ("page" :: argument :: rest) = "page, " ++ join ", " (argument :: rest) := by
      simp [Text.join]
    rw [hjoin]
    exact composed_lead (by decide) (composed_join _)

lemma ownCall?_written (h : ctx.Detached) (name : Text) (args : List Text) :
    ∀ line ∈ ownCall? ctx name args,
      Written "this" ((ownCalleeCopies ctx name).map (Copied.text ctx) ++ args) line := by
  intro line hline
  rw [mem_def, ownCall?, h.page, h.self] at hline
  rw [ownCalleeCopies]
  have hname : Composed "this" (name :: args) (name ++ ("(" ++ (join ", " ("page" :: args) ++ ");"))) :=
    composed_part (by decide) (by decide) (composed_trail (composed_withPage args) (by decide))
  by_cases hfunction : ctx.functions.contains name = true
  · rw [if_pos hfunction] at hline ⊢
    cases hline
    simp only [append_assoc]
    exact .of_composed (composed_lead (by decide) hname)
  rw [if_neg hfunction] at hline ⊢
  split at hline
  next className hclass =>
    rw [(filter_eq_some_iff.1 hclass).1]
    cases hline
    simp only [append_assoc]
    exact .of_composed (composed_lead (by decide) (composed_part (by decide) (by decide) hname))
  · split_ifs at hline
    cases hline

lemma otherCall_written (h : ctx.Detached) (receiver name : Text) (args : List Text) :
    Written "this" (receiver :: name :: args) (otherCall ctx receiver name args).1 := by
  have hcall : ∀ {listed : Text}, Composed "this" args listed →
      Written "this" (receiver :: name :: args)
        ("await " ++ receiver ++ "." ++ name ++ "(" ++ listed ++ ");") := by
    intro listed hlisted
    simp only [append_assoc]
    exact .of_composed (composed_lead (by decide) (composed_part (by decide) (by decide)
      (composed_part (by decide) (by decide) (composed_trail hlisted (by decide)))))
  have hplain := hcall (composed_join args)
  unfold otherCall
  generalize (ctx.project.bind (·.get? receiver)).filter (·.name = receiver) = known
  cases known with
  | none => exact hplain
  | some c =>
    dsimp only
    split_ifs
    · rw [h.page]
      exact hcall (composed_withPage args)
    · exact hplain

lemma genericCall_written (h : ctx.Detached) :
    Ensures (Copies ((calledCopies t ctx).map (Copied.text ctx))) (genericCall t ctx) := by
  refine .ofOption declined <| .bind fun statement hstatement => .bind fun call hcall => ?_
  rw [calledCopies, hstatement, bind_some, hcall]
  dsimp only
  rw [map_append, map_argumentCopies]
  by_cases hown : (receiverAndName call.1).1 = [] ∨ (receiverAndName call.1).1 = "this".toList
  · rw [if_pos hown]
    split_ifs
    · exact .none
    · exact .map fun line hline => one (ownCall?_written h _ _ line hline)
  · rw [if_neg hown]
    split_ifs
    · exact .none
    · exact .none
    · exact .some (one (otherCall_written h _ _ _))

/-- **A rule** writes a line that has the word `this` in its code only because of what the rule
copies. -/
lemma rule_written : ∀ rule ∈ rules, ∀ t ctx, ctx.Detached →
    Ensures (Copies ((ruleCopies rule.name t ctx).map (Copied.text ctx))) (rule.apply t ctx) := by
  simp only [rules, forall_mem_cons]
  exact ⟨fun _ _ => elementWait_written, fun _ _ => driverWait_written, fun _ _ => elementAction_written,
    fun _ _ => sleep_written, fun _ _ => assertion_written, fun _ _ => elementAssertion_written,
    fun _ _ _ => log_written, fun _ _ => navigate_written, fun _ _ => history_written,
    fun _ _ => newPageObject_written, fun _ _ => chainedPageCall_written, fun _ _ _ => throw_written,
    fun _ _ => returns_written, fun _ _ _ => literalDeclaration_written, fun _ _ => genericCall_written,
    by simp⟩

end Rules

end Restage.Conversion
