import Restage.Proofs.Locator.CallReading
import Restage.Proofs.Text.Masks

/-!
# Complete locator calls

A call is written into a line of code, so whatever the value of its locator holds, it must not break
the line: it has to be one call from its method to its last parenthesis.  What counts as code is
decided by the mask, which blanks out what stands between quotes.  `Fits d e t` says that a text
leaves no literal open, has no parenthesis in its code and takes the braces from depth `d` to depth
`e`.  This goes along with concatenation, so that each call is put together from its literals and
the fixed text between them.

`call_complete` adds what a call without parameters means: read back, it gives the value of the
locator inside of what its kind puts around it.
-/

namespace Restage.Locator

open Text TypeScript List Option

variable {method : Text} (t value : Text)

/-! ## What is to be shown -/

/-- How many braces are open after a text, given how many were open before it.  There is no answer
if one is closed that is not open. -/
def braceDepth? : Nat → Text → Option Nat
  | d, [] => some d
  | d, c :: r =>
    if c = '\x7b' then braceDepth? (d + 1) r
    else if c = '\x7d' then if d = 0 then none else braceDepth? (d - 1) r
    else braceDepth? d r

/-- A text is one call of a method: in its code the parentheses around the arguments are the only
ones, each brace is closed, and no literal is left open. -/
structure IsCompleteCall (t method args : Text) : Prop where
  eq : t = method ++ "(" ++ args ++ ")"
  word : isWordText method = true
  mask_eq : mask t = method ++ "(" ++ mask args ++ ")"
  parens : '(' ∉ mask args ∧ ')' ∉ mask args
  braces : braceDepth? 0 (mask args) = some 0
  closed : Quoting.after .code t = .code

/-- What a call has to say about a value of some kind when there are no parameters.  Inside of the
selector of a name the value stands between double quotes of its own, and a role may have an
accessible name. -/
def CallParts.Means (c : CallParts) (value : Text) : Kind → Prop
  | .xpath => c.first = [.text ("xpath=" ++ value)]
  | .id => c.first = [.text ("#" ++ value)]
  | .className => c.first = [.text ("." ++ value)]
  | .name => ∃ e, c.first = [.text ("[name=\"" ++ e ++ "\"]")] ∧
      bodyEnd? '"' (e ++ ['"']) = some (e, []) ∧ decodeBody? '"' e = some [.text value]
  | .role =>
    if ':' ∈ value then ∃ role name, c.first = [.text role] ∧ c.option = .named [.text name] ∧
      role ++ ':' :: name = value ∧ ':' ∉ role
    else c.first = [.text value] ∧ c.option = .nothing
  | _ => c.first = [.text value]

/-! ## Text that fits -/

/-- A text leaves no literal open, has no parenthesis in its code, and takes the braces from one
depth to another. -/
structure Fits (d e : Nat) (t : Text) : Prop where
  closed : Quoting.after .code t = .code
  parens : '(' ∉ mask t ∧ ')' ∉ mask t
  braces : braceDepth? d (mask t) = some e

lemma braceDepth?_append (d : Nat) (t u : Text) :
    braceDepth? d (t ++ u) = (braceDepth? d t).bind (braceDepth? · u) := by
  induction t generalizing d with
  | nil => rfl
  | cons c t ih =>
    rw [cons_append, braceDepth?, braceDepth?]
    split_ifs
    · exact ih (d + 1)
    · rfl
    · exact ih (d - 1)
    · exact ih d

lemma Fits.append {d e f : Nat} {t u : Text} (ht : Fits d e t) (hu : Fits e f u) : Fits d f (t ++ u) where
  closed := by rw [after_append, ht.closed, hu.closed]
  parens := by
    rw [mask_append ht.closed, mem_append, mem_append, not_or, not_or]
    exact ⟨⟨ht.parens.1, hu.parens.1⟩, ht.parens.2, hu.parens.2⟩
  braces := by
    rw [mask_append ht.closed, braceDepth?_append, ht.braces, bind_some, hu.braces]

lemma IsBody.inside {quote : Char} (hquote : quote ≠ '\\') {body : Text} (h : IsBody quote body) :
    Quoting.after (.inside quote) (body ++ [quote]) = .code ∧
      maskFrom (.inside quote) (body ++ [quote]) = List.replicate body.length ' ' ++ [quote] := by
  induction h with
  | nil => simp [Quoting.after, Quoting.step, Quoting.shown, hquote]
  | escaped _ ih => exact ⟨ih.1, congrArg (' ' :: ' ' :: ·) ih.2⟩
  | @char c t hne hslash _ ih =>
    have hstep : Quoting.step (.inside quote) c = .inside quote := by
      rw [Quoting.step, if_neg hslash, if_neg hne]
    have hshown : Quoting.shown (.inside quote) c = ' ' := by
      rw [Quoting.shown, if_neg hslash, if_neg hne]
    rw [cons_append, maskFrom_cons, hstep, hshown, ih.2, Quoting.after, foldl_cons, hstep]
    exact ⟨ih.1, rfl⟩

lemma braceDepth?_of_forall {t : Text} (h : ∀ c ∈ t, c ≠ '\x7b' ∧ c ≠ '\x7d') (d : Nat) :
    braceDepth? d t = some d := by
  induction t with
  | nil => rfl
  | cons c t ih =>
    rw [forall_mem_cons] at h
    rw [braceDepth?, if_neg h.1.1, if_neg h.1.2, ih h.2]

variable (kind : Kind) (params : List Text)

/-- Nothing of a literal is shown but its quotes, and it is not left open. -/
lemma exists_mask_literal (value : Text) (template : Bool) :
    ∃ (quote : Char) (n : Nat), (quote = '\x27' ∨ quote = backtick) ∧
      mask (literal params value template) = quote :: (List.replicate n ' ' ++ [quote]) ∧
      Quoting.after .code (literal params value template) = .code := by
  obtain ⟨quote, body, hquote, hliteral, hend, -⟩ := exists_body params value template
  have hslash : quote ≠ '\\' := by rcases hquote with rfl | rfl <;> decide
  have hopen : Quoting.step .code quote = .inside quote := by rcases hquote with rfl | rfl <;> rfl
  obtain ⟨hafter, hmask⟩ := ((bodyEnd?_eq_some_iff hslash).1 hend).1.inside hslash
  refine ⟨quote, body.length, hquote, ?_, ?_⟩
  · rw [hliteral, cons_append, mask, maskFrom_cons, hopen, hmask]
    rfl
  · rw [hliteral, cons_append, Quoting.after, foldl_cons, hopen]
    exact hafter

/-- **A literal fits** at every depth, whatever its value holds. -/
lemma fits_literal (value : Text) (template : Bool) (d : Nat) :
    Fits d d (literal params value template) := by
  obtain ⟨quote, n, hquote, hshown, hafter⟩ := exists_mask_literal params value template
  have hother : ∀ c, c ≠ quote → c ≠ ' ' → c ∉ mask (literal params value template) := by
    intro c hne hblank hc
    rw [hshown] at hc
    simp only [mem_cons, mem_append, mem_replicate] at hc
    tauto
  have hne : ∀ c, c ∉ ['\x27', backtick] → c ≠ quote := by
    rintro c hc rfl
    exact hc (by simpa using hquote)
  refine ⟨hafter, ⟨hother _ (hne _ (by decide)) (by decide), hother _ (hne _ (by decide)) (by decide)⟩,
    braceDepth?_of_forall (fun c hc => ⟨?_, ?_⟩) d⟩
  · rintro rfl
    exact hother _ (hne _ (by decide)) (by decide) hc
  · rintro rfl
    exact hother _ (hne _ (by decide)) (by decide) hc

/-- **A method with arguments that fit** is a complete call. -/
lemma isCompleteCall {args : Text} (hmethod : isWordText method = true) (hargs : Fits 0 0 args) :
    IsCompleteCall (method ++ "(" ++ args ++ ")") method args := by
  have hquotes : ∀ c ∈ method ++ "(", isQuote c = false := by
    rw [forall_mem_append]
    exact ⟨fun c hc => isQuote_eq_false_of_isWord (all_isWord hmethod c hc),
      forall_of_any_eq_false (by decide)⟩
  have hafter := after_of_forall hquotes
  have hinside : Quoting.after .code (method ++ "(" ++ args) = .code := by
    rw [after_append, hafter, hargs.closed]
  refine ⟨rfl, hmethod, ?_, hargs.parens, hargs.braces, ?_⟩
  · rw [mask_append hinside, mask_append hafter, mask_of_forall hquotes]
    rfl
  · rw [after_append, hinside]
    rfl

lemma exists_isCompleteCall_callWith (hmethod : isWordText method = true) (params : List Text)
    (value : Text) :
    ∃ args, IsCompleteCall (callWith method params value) method args :=
  ⟨_, isCompleteCall hmethod (fits_literal params value false 0)⟩

lemma exists_isCompleteCall_roleCall (value : Text) :
    ∃ args, IsCompleteCall (roleCall params value) "getByRole" args := by
  unfold roleCall
  rcases cutFirst? ':' value with _ | ⟨role, name⟩
  · exact exists_isCompleteCall_callWith (by decide) params value
  · have hopening : Fits 0 1 ", \x7b name: " := ⟨by decide, by decide, by decide⟩
    have hclosing : Fits 1 0 " \x7d" := ⟨by decide, by decide, by decide⟩
    have hargs := ((fits_literal params role false 0).append hopening).append
      ((fits_literal params name false 1).append hclosing)
    have hcall := isCompleteCall (by decide : isWordText "getByRole" = true) hargs
    have hstart : "getByRole(".toList = "getByRole".toList ++ "(".toList := rfl
    have hend : " \x7d)".toList = " \x7d".toList ++ ")".toList := rfl
    refine ⟨literal params role ++ ", \x7b name: " ++ (literal params name ++ " \x7d"), ?_⟩
    rw [hstart, hend]
    simpa only [append_assoc] using hcall

lemma exists_isCompleteCall_partialCall (value : Text) :
    ∃ args, IsCompleteCall (call .partialLinkText value params) "getByText" args := by
  have hoption : Fits 0 0 ", \x7b exact: false \x7d" := ⟨by decide, by decide, by decide⟩
  have hcall := isCompleteCall (by decide : isWordText "getByText" = true)
    ((fits_literal params value false 0).append hoption)
  have hstart : "getByText(".toList = "getByText".toList ++ "(".toList := rfl
  have hend : ", \x7b exact: false \x7d)".toList = ", \x7b exact: false \x7d".toList ++ ")".toList := rfl
  refine ⟨literal params value ++ ", \x7b exact: false \x7d", ?_⟩
  unfold call
  rw [hstart, hend]
  simpa only [append_assoc] using hcall

/-- **Every call is complete.** -/
lemma exists_isCompleteCall_call (value : Text) (params : List Text) :
    ∃ args, IsCompleteCall (call kind value params) kind.method args := by
  cases kind with
  | role => exact exists_isCompleteCall_roleCall params value
  | xpath =>
    have hcall := isCompleteCall (by decide : isWordText "locator" = true)
      (fits_literal params ("xpath=" ++ value) true 0)
    exact ⟨_, hcall⟩
  | partialLinkText => exact exists_isCompleteCall_partialCall params value
  | _ => exact exists_isCompleteCall_callWith (by decide) params _

/-! ## Calls without parameters -/

lemma isDynamic_nil : isDynamic [] value = false := by
  have hcollect : ∀ (scanned : List (Char ⊕ Text × Text)) (text : Text),
      (collectPieces [] text scanned).any Piece.isSlot = false := by
    intro scanned
    induction scanned with
    | nil => exact fun _ => rfl
    | cons found scanned ih =>
      intro text
      rcases found with c | ⟨name, whole⟩
      · exact ih (c :: text)
      · exact ih (whole.reverse ++ text)
  exact hcollect _ []

lemma pieces_nil_params : pieces [] value = [.text value] :=
  (isDynamic_eq_false_iff [] value).1 (isDynamic_nil value)

lemma decodeFrom?_slashed (text t : Text) :
    decodeFrom? false text none (t.flatMap (slashed '"')) = some [.text (text.reverse ++ t)] := by
  induction t generalizing text with
  | nil => simp [decodeFrom?]
  | cons c t ih =>
    rw [flatMap_cons, slashed]
    split_ifs with hc
    · exact (ih (c :: text)).trans (by simp)
    · rw [not_or] at hc
      refine (decodeFrom?_plain false text hc.1 (by simp)).trans ?_
      exact (ih (c :: text)).trans (by simp)

lemma bodyEnd?_slashed :
    bodyEnd? '"' (t.flatMap (slashed '"') ++ ['"']) = some (t.flatMap (slashed '"'), []) := by
  refine ReadOver.bodyEnd? (.flatMap fun c _ => ?_) (by decide)
  rw [slashed]
  split_ifs with hc
  · exact .escaped '"' c
  · rw [not_or] at hc
    exact .plain hc.2 hc.1

lemma means_roleParts : (roleParts [] value).Means value .role := by
  unfold CallParts.Means
  rcases hcut : cutFirst? ':' value with _ | ⟨role, name⟩
  · rw [if_neg (not_mem_of_cutFirst?_eq_none hcut), roleParts_of_none hcut, pieces_nil_params]
    exact ⟨rfl, rfl⟩
  · obtain ⟨rfl, hfirst⟩ := cutFirst?_spec hcut
    rw [if_pos (by simp), roleParts_of_some hcut, pieces_nil_params, pieces_nil_params]
    exact ⟨role, name, rfl, rfl, rfl, hfirst⟩

/-- **A call without parameters** means the value of its locator. -/
lemma means_callParts (value : Text) : (callParts [] value kind).Means value kind := by
  cases kind with
  | name =>
    refine ⟨value.flatMap (slashed '"'), ?_, bodyEnd?_slashed value, decodeFrom?_slashed [] value⟩
    have hselector : nameSelector [] value = "[name=\"" ++ value.flatMap (slashed '"') ++ "\"]" := by
      unfold nameSelector
      rw [if_neg (by simp [isDynamic_nil]), exchange_quote_exchange_slash (by decide)]
    rw [← hselector]
    exact pieces_nil_params _
  | role => exact means_roleParts value
  | _ => exact pieces_nil_params _

/-- **Locator calls are complete and mean what they should.**  Whatever a locator holds and whatever
the parameters are, its call is one call of the method of its kind, with no other parentheses in its
code, with balanced braces and without an open literal.  Without parameters the call reads back as
the value of the locator inside of the selector of its kind. -/
theorem call_complete (d : Descriptor) (params : List Text) :
    (∃ args, IsCompleteCall (d.call params) d.kind.method args) ∧
      ∃ c, readCall? d.call = some c ∧ c.Means d.value d.kind :=
  ⟨exists_isCompleteCall_call d.kind d.value params,
    callParts [] d.value d.kind, readCall?_call d.kind d.value [], means_callParts d.kind d.value⟩

end Restage.Locator
