import Restage.Proofs.Conversion.ExpressionSites
import Restage.Proofs.Conversion.StatementNames
import Restage.Proofs.Locator.CompleteCalls
import Restage.Proofs.Text.Derivations

/-!
# References to the object itself in expressions

In a step there is no object to refer to: the page is `page`, and an element field has no
counterpart.  What the exchanges of an expression write there has no `this` in its code, so the
counterpart of an expression refers to `this` only if the expression does (`Steady.refers`).

An exchange takes no notice of literals and of what follows.  A search that stands in a literal
could bring the contents of its own literal into the code, and a comparison that runs into a word
could make a new one of the two.  A text in which that does not happen, and which leaves no literal
open, is `Steady`.
-/

namespace Restage.Conversion

open Text Java TypeScript List Option

variable {a out t : Text}

lemma isWordText_this : isWordText "this" = true := by decide

/-! ## Elements -/

section Locators

open Locator (callWith roleCall call)

lemma quiet_fixed (h : IsClosed t ∧ ¬"this".toList <:+: t) : Quiet "this" t :=
  quiet_of_not_infix h.1 h.2

/-- A literal is quiet whatever it holds. -/
lemma quiet_literal (params : List Text) (value : Text) (template : Bool) :
    Quiet "this" (literal params value template) := by
  obtain ⟨quote, n, hquote, hshown, hafter⟩ := Locator.exists_mask_literal params value template
  have hthis : "this".toList = 't' :: "his".toList := rfl
  rw [hthis]
  refine quiet_of_not_mem_mask (by decide) hafter fun hmem => ?_
  rw [hshown] at hmem
  rcases hquote with rfl | rfl <;> simp [backtick] at hmem

/-- Something quiet stays so between fixed pieces that do not join to a word with it. -/
lemma quiet_between {before after : Text} (ht : Quiet "this" t) (hbefore : Quiet "this" before)
    (hafter : Quiet "this" after) (hlast : ∀ c ∈ before.getLast?, isWord c = false)
    (hhead : ∀ c ∈ after.head?, isWord c = false) : Quiet "this" (before ++ (t ++ after)) :=
  hbefore.append isWordText_this (ht.append isWordText_this hafter (.inr hhead)) (.inl hlast)

lemma quiet_callWith (method : Text) (hmethod : IsClosed (method ++ "(") ∧ ¬"this".toList <:+: method ++ "(")
    (params : List Text) (value : Text) : Quiet "this" (callWith method params value) := by
  rw [callWith, append_assoc]
  refine quiet_between (quiet_literal params value false) (quiet_fixed hmethod) (quiet_fixed (by decide)) ?_
    (by decide)
  intro c hc
  have hparenthesis : '(' = c := by simpa using hc
  rw [← hparenthesis]
  decide

/-- **A locator call is quiet.** -/
lemma quiet_call (kind : Locator.Kind) (value : Text) (params : List Text) :
    Quiet "this" (call kind value params) := by
  cases kind with
  | role =>
    change Quiet "this" (roleCall params value)
    rw [roleCall]
    split
    · simp only [append_assoc]
      refine quiet_between (quiet_literal ..) (quiet_fixed (by decide)) ?_ (by decide) ?_
      · exact quiet_between (quiet_literal ..) (quiet_fixed (by decide)) (quiet_fixed (by decide)) (by decide)
          (by decide)
      · rintro _ ⟨⟩
        decide
    · exact quiet_callWith _ (by decide) params value
  | xpath =>
    change Quiet "this" ("locator(" ++ literal params ("xpath=" ++ value) true ++ ")")
    rw [append_assoc]
    exact quiet_between (quiet_literal params _ true) (quiet_fixed (by decide)) (quiet_fixed (by decide))
      (by decide) (by decide)
  | partialLinkText =>
    change Quiet "this" ("getByText(" ++ literal params value ++ ", \x7b exact: false \x7d)")
    rw [append_assoc]
    exact quiet_between (quiet_literal params value false) (quiet_fixed (by decide)) (quiet_fixed (by decide))
      (by decide) (by decide)
  | label => exact quiet_callWith "getByLabel" (by decide) params _
  | placeholder => exact quiet_callWith "getByPlaceholder" (by decide) params _
  | alt => exact quiet_callWith "getByAltText" (by decide) params _
  | title => exact quiet_callWith "getByTitle" (by decide) params _
  | linkText | text => exact quiet_callWith "getByText" (by decide) params _
  | id | name | className | css | tagName | unknown =>
    exact quiet_callWith "locator" (by decide) params _

end Locators

/-- There is no object to refer to, and the page is a variable. -/
structure Context.Detached (ctx : Context) : Prop where
  page : ctx.pageRef = "page".toList
  self : ctx.selfRef = none

variable {ctx : Context} {before : Option Char} {s : Quoting}

lemma Context.Detached.accessorCall? (h : ctx.Detached) (name : Text) : accessorCall? ctx name = none := by
  rw [Conversion.accessorCall?, h.self]
  split_ifs <;> rfl

/-- **Without an object, an element is found on the page**, and its reference is quiet. -/
lemma Context.Detached.quiet_element (h : ctx.Detached) {e element : Text}
    (helement : element? ctx e = some element) : Quiet "this" element := by
  obtain ⟨d, rfl⟩ : ∃ d : Locator.Descriptor, element = "page." ++ d.call ctx.scope := by
    have hpage : ∀ r : Text, ctx.pageRef ++ "." ++ r = "page." ++ r := fun r => by rw [h.page]; rfl
    unfold element? at helement
    dsimp only at helement
    split at helement
    · rw [h.accessorCall?] at helement
      cases helement
    · split at helement
      · obtain ⟨value, -, rfl⟩ := map_eq_some_iff.1 helement
        exact ⟨_, hpage _⟩
      · obtain ⟨args, -, helement⟩ := bind_eq_some_iff.1 helement
        obtain ⟨first, -, helement⟩ := bind_eq_some_iff.1 helement
        obtain ⟨value, -, helement⟩ := bind_eq_some_iff.1 helement
        cases helement
        exact ⟨_, hpage _⟩
  exact (quiet_fixed (by decide)).append isWordText_this (quiet_call d.kind d.value ctx.scope)
    (.inl (by decide))

/-! ## Reads -/

lemma isClosed_of_isString {literal : Text} (h : isString literal = true) : IsClosed literal := by
  have hclosed : ∀ {body : Text}, IsLiteralBody body → IsClosed ('"' :: (body ++ ['"'])) := by
    intro body hbody
    induction hbody with
    | nil => rfl
    | escaped _ _ ih => exact ih
    | @char c body hquote hc _ ih =>
      have hstep : Quoting.step (.inside '"') c = .inside '"' := by
        rw [Quoting.step, if_neg hc, if_neg hquote]
      have hafter : Quoting.after .code ('"' :: (c :: body ++ ['"'])) =
          Quoting.after (Quoting.step (.inside '"') c) (body ++ ['"']) := rfl
      rw [hstep] at hafter
      exact hafter.trans ih
  have hread := string?_of_isString h
  rw [string?.eq_def] at hread
  split at hread
  next r =>
    obtain ⟨⟨body, _⟩, hbody, hpair⟩ := map_eq_some_iff.1 hread
    obtain ⟨-, rfl⟩ := Prod.mk.inj hpair
    obtain ⟨hholds, rfl⟩ := stringTail?_eq_some_iff.1 hbody
    exact hclosed hholds
  · cases hread

lemma search_target {r target : Text} (h : literalSearch? t = some r) (ht : t = target ++ r) :
    IsClosed target ∧ ∃ c, target.head? = some c ∧ isWord c = true := by
  obtain ⟨start, reference, inner, literal, gap, hstart, hreference, heq, hinner, hgap, hliteral⟩ :=
    literalSearch?_eq_some h
  obtain rfl : target = start ++ (reference ++ (".findElement(" ++ (inner ++ (literal ++ (')' :: gap ++ [')']))))) := by
    rw [heq] at ht
    have hcut : start ++ (reference ++ (".findElement(" ++ (inner ++ (literal ++ (')' :: gap ++ [')']))))) ++ r =
        target ++ r := by rw [← ht]; simp
    exact (append_cancel_right hcut).symm
  have hinside : ∀ c ∈ inner, isQuote c = false := by
    intro c hc
    rcases hinner c hc with hblank | hdotted | rfl
    · exact (isBlank_plain hblank).1
    · exact isQuote_of_isDotted hdotted
    · decide
  have hbehind : ∀ c ∈ ')' :: gap ++ [')'], isQuote c = false := by
    intro c hc
    simp only [mem_append, mem_cons, not_mem_nil, or_false] at hc
    rcases hc with (rfl | hc) | rfl
    · decide
    · exact (isBlank_plain (hgap c hc)).1
    · decide
  have hopening : ∀ c ∈ start ++ (reference ++ ".findElement("), isQuote c = false := by
    rw [driverReferences, mem_cons, mem_singleton] at hreference
    rcases hstart with rfl | rfl <;> rcases hreference with rfl | rfl <;> decide
  constructor
  · have hbefore : Quoting.after .code (start ++ (reference ++ ".findElement(") ++ inner) = .code :=
      after_of_forall (forall_mem_append.2 ⟨hopening, hinside⟩)
    have hcut : start ++ (reference ++ (".findElement(" ++ (inner ++ (literal ++ (')' :: gap ++ [')']))))) =
        start ++ (reference ++ ".findElement(") ++ inner ++ (literal ++ (')' :: gap ++ [')'])) := by simp
    rw [hcut, Text.IsClosed, after_append, hbefore, after_append, isClosed_of_isString hliteral]
    exact after_of_forall hbehind
  · rw [driverReferences, mem_cons, mem_singleton] at hreference
    rcases hstart with rfl | rfl <;> rcases hreference with rfl | rfl <;> exact ⟨_, rfl, by decide⟩

/-- Without an object, what is read stays as it is, unless it is read off a search. -/
lemma convertRead?_detached (h : ctx.Detached) {new rest : Text}
    (hread : convertRead? ctx before t = some (new, rest)) :
    (∃ old, old ≠ [] ∧ t = old ++ rest ∧ new = old) ∨
      ∃ target action args element r, literalSearch? t = some r ∧ (readEnd? r).isSome = true ∧
        t = target ++ r ∧ t = (target ++ ("." ++ (action ++ "("))) ++ ((args ++ [')']) ++ rest) ∧
        action ∈ reads.map (·.1) ∧ element? ctx target = some element ∧
        new = ("await " ++ (element ++ ("." ++ ((Table.get? reads action).getD [] ++ "(")))) ++
          (args ++ [')']) := by
  obtain ⟨⟨found, _⟩, hfound, hnew⟩ := map_eq_some_iff.1 hread
  obtain ⟨-, ht, haction, -, hcases⟩ := read?_target_cases hfound
  dsimp only at hnew
  cases helement : element? ctx found.target with
  | none =>
    rw [helement] at hnew
    obtain ⟨rfl, rfl⟩ := Prod.mk.inj hnew
    refine .inl ⟨_, ?_, ht, by rw [ht, consumed_append]⟩
    simp
  | some element =>
    rw [helement] at hnew
    obtain ⟨rfl, rfl⟩ := Prod.mk.inj hnew
    rcases hcases with ⟨name, hname, htarget⟩ | ⟨r, hr, htarget, hend⟩
    · rw [element?_field hname htarget, h.accessorCall?] at helement
      cases helement
    · exact .inr ⟨found.target, found.action, found.arguments, element, r, hr, hend, htarget, by rw [ht]; simp,
        haction, helement, by simp⟩

/-- Each search that is read in a text stands in its code, if the text is read from the given
state. -/
def SearchesInCode (s : Quoting) (t : Text) : Prop :=
  ∀ p u r, t = p ++ u → literalSearch? u = some r → (readEnd? r).isSome = true → s.after p = .code

lemma SearchesInCode.behind (h : SearchesInCode s (a ++ t)) :
    SearchesInCode (s.after a) t := by
  intro p u r ht hr hend
  rw [← after_append]
  exact h (a ++ p) u r (by rw [ht, append_assoc]) hr hend

lemma derived_reads (h : ctx.Detached) (hrun : Exchanges (convertRead? ctx) before t out)
    (hsearches : SearchesInCode s t) : Derived "this" s t out := by
  induction hrun generalizing s with
  | nil => exact .nil
  | @keep before c r out _ _ ih => exact .keep (ih (SearchesInCode.behind (a := [c]) hsearches))
  | @swap before old new rest out _ hread _ ih =>
    rcases convertRead?_detached h hread with ⟨old', -, heq, rfl⟩ |
      ⟨target, action, args, element, r, hr, hend, ht, heq, haction, helement, rfl⟩
    · obtain rfl := append_cancel_right heq
      exact .append _ (ih hsearches.behind)
    have hcode : s = .code := hsearches [] (old ++ rest) r rfl hr hend
    subst hcode
    obtain ⟨hclosed, c, hhead, hword⟩ := search_target hr ht
    rw [← append_assoc] at heq
    obtain rfl := append_cancel_right heq
    have hfixed : ∀ action ∈ reads.map (·.1),
        IsClosed ("." ++ ((Table.get? reads action).getD [] ++ "(")) ∧
          ¬"this".toList <:+: "." ++ ((Table.get? reads action).getD [] ++ "(") := by decide
    have hquiet : Quiet "this" ("await " ++ (element ++ ("." ++ ((Table.get? reads action).getD [] ++ "(")))) :=
      quiet_between (h.quiet_element helement) (quiet_fixed (by decide)) (quiet_fixed (hfixed action haction))
        (by decide) (by rintro _ ⟨⟩; decide)
    have hopening : IsClosed (target ++ ("." ++ (action ++ "("))) := by
      have hactions : ∀ action ∈ reads.map (·.1), IsClosed ("." ++ (action ++ "(")) := by decide
      rw [Text.IsClosed, after_append, hclosed]
      exact hactions action haction
    have hlast : ∀ a b : Text, (a ++ (b ++ "(")).getLast? = some '(' := fun a b => by
      rw [← append_assoc]
      exact getLast?_concat
    rw [append_assoc (target ++ _) _ rest, append_assoc ("await ".toList ++ _) _ out]
    refine .swap ⟨hquiet.closed.trans hopening.symm, ⟨c, 'a', ?_, rfl, ?_, by decide⟩,
      ⟨'(', '(', ?_, ?_, rfl, by decide⟩, hquiet.free⟩ (.append _ (ih ?_))
    · rw [head?_append, hhead]
      rfl
    · rw [hword]
      decide
    · rw [← append_assoc]
      exact hlast _ _
    · rw [← append_assoc, ← append_assoc]
      exact hlast _ _
    · rw [← after_append]
      exact hsearches.behind

/-! ## Queries and comparisons -/

lemma derived_queries {query counterpart : Text}
    (hplain : ∀ start ∈ ([[], "this."] : List Text), ∀ reference ∈ driverReferences, PlainSwap "this" (start ++ (reference ++ query)) counterpart)
    (hrun : Exchanges (fun _ => convertQuery? query counterpart) before t out) (hs : s.Proper) : Derived "this" s t out := by
  induction hrun generalizing s with
  | nil => exact .nil
  | keep _ _ ih => exact .keep (ih (hs.step _))
  | swap _ hread _ ih =>
    obtain ⟨rfl, start, reference, hstart, hreference, heq⟩ := convertQuery?_eq_some hread
    obtain rfl := append_cancel_right heq
    have hswap := hplain start (by rcases hstart with rfl | rfl <;> simp) reference hreference
    exact .swap (hswap.swaps hs) (ih (hs.after _))

/-- The comparisons in a text that is read from the given state end with parentheses that are not
escaped, and no word follows one that ends in code. -/
def ComparisonsEnd (s : Quoting) (before : Option Char) (t : Text) : Prop :=
  ∀ p old rest new, Found (fun _ => convertEquals?) before t p (old ++ [')']) rest new →
    (∀ q, s.after (p ++ old) ≠ .escaped q) ∧ (s.after (p ++ old) = .code → ∀ c ∈ rest.head?, isWord c = false)

lemma ComparisonsEnd.behind (ha : a ≠ []) (h : ComparisonsEnd s before (a ++ t)) :
    ComparisonsEnd (s.after a) a.getLast? t := by
  intro p old rest new hfound
  have hhere := h (a ++ p) old rest new ((found_append_iff ha).2 hfound)
  rwa [append_assoc, after_append] at hhere

lemma step_parenthesis (hs : s.Proper) (h : ∀ q, s ≠ .escaped q) : s.step ')' = s := by
  cases s with
  | code => rfl
  | inside q =>
    rw [Quoting.step, if_neg (by decide), if_neg]
    rintro rfl
    cases hs
  | escaped q => exact absurd rfl (h q)

lemma derived_comparisons (hrun : Exchanges (fun _ => convertEquals?) before t out) (hs : s.Proper)
    (hends : ComparisonsEnd s before t) : Derived "this" s t out := by
  induction hrun generalizing s with
  | nil => exact .nil
  | @keep before c r out _ _ ih =>
    exact .keep (ih (hs.step c) (ComparisonsEnd.behind (a := [c]) (cons_ne_nil c []) hends))
  | @swap before old new rest out hold hread _ ih =>
    obtain ⟨start, receiver, argument, -, -, heq, rfl⟩ := convertEquals?_eq_some hread
    obtain rfl := append_cancel_right heq
    have hcall : start ++ equalsCall receiver argument =
        (start ++ receiver) ++ (".equals(" ++ argument) ++ [')'] := by simp [equalsCall]
    rw [hcall] at hold hread hends ih ⊢
    have hproper : (s.after (start ++ receiver)).Proper := hs.after _
    obtain ⟨state, hstate⟩ : ∃ state, state = ((s.after (start ++ receiver)).after ".equals(").after argument :=
      ⟨_, rfl⟩
    have hstateProper : state.Proper := hstate ▸ (hproper.after _).after _
    have hargument : s.after (start ++ receiver ++ (".equals(" ++ argument)) = state := by
      rw [hstate, after_append, after_append]
    obtain ⟨hescaped, hcode⟩ := hends [] _ rest _ ⟨rfl, hold, hread⟩
    rw [nil_append, hargument] at hescaped hcode
    have hstep : state.step ')' = state := step_parenthesis hstateProper hescaped
    have hrest : Derived "this" state rest out := by
      have hclosing : s.after (start ++ receiver ++ (".equals(" ++ argument) ++ [')']) = state := by
        rw [after_append, hargument]
        exact hstep
      have hbehind := hends.behind hold
      rw [hclosing] at hbehind
      exact ih hstateProper hbehind
    have hswap : Swaps "this" (s.after (start ++ receiver)) ".equals(" " === " :=
      PlainSwap.swaps (by decide) hproper
    have hderived : Derived "this" s (start ++ receiver ++ (".equals(" ++ (argument ++ ')' :: rest)))
        (start ++ receiver ++ (" === " ++ (argument ++ out))) := by
      refine .append _ (.swap hswap (.append _ ?_))
      rw [← hstate]
      exact .drop (by decide) hstep hcode hrest
    simpa only [append_assoc, cons_append, nil_append] using hderived

/-! ## Expressions -/

/-- An expression before the comparisons in it are exchanged. -/
def beforeComparisons (ctx : Context) (t : Text) : Text :=
  exchangeAll (fun _ => convertQuery? ".getCurrentUrl()" (ctx.pageRef ++ ".url()"))
    (exchangeAll (fun _ => convertQuery? ".getTitle()" ("await " ++ ctx.pageRef ++ ".title()"))
      (exchangeAll (convertRead? ctx) t))

/-- An expression leaves no literal open, and its searches and comparisons do not get in the way of
what is around them. -/
structure Steady (ctx : Context) (t : Text) : Prop where
  closed : IsClosed t
  searches : SearchesInCode .code t
  comparisons : ComparisonsEnd .code none (beforeComparisons ctx t)

namespace Steady

variable {t : Text}

lemma of_no_site (hclosed : IsClosed t) (hsearch : NoSearchRead t) (h : ¬Site ctx t) : Steady ctx t := by
  obtain ⟨hread, hrest⟩ := not_or.1 h
  obtain ⟨hquery, hequals⟩ := not_or.1 hrest
  refine ⟨hclosed, fun p u r ht hr hend => ?_, fun p old rest new hfound => ?_⟩
  · rw [hsearch u r ⟨p, ht.symm⟩ hr] at hend
    cases hend
  · have hsame : beforeComparisons ctx t = t := by
      have htitle := exchangeAll_convertQuery?_eq_self ("await " ++ ctx.pageRef ++ ".title()")
        fun hsite => hquery ⟨".getTitle()", by decide, hsite⟩
      have haddress := exchangeAll_convertQuery?_eq_self (ctx.pageRef ++ ".url()")
        fun hsite => hquery ⟨".getCurrentUrl()", by decide, hsite⟩
      rw [beforeComparisons, exchangeAll_convertRead?_eq_self hsearch hread, htitle, haddress]
    rw [hsame] at hfound
    obtain ⟨start, receiver, argument, hreceiver, hargument, hold, -⟩ := found_equals hfound
    refine absurd ⟨receiver, argument, hreceiver, hargument, p ++ start, rest, ?_⟩ hequals
    rw [hfound.eq, hold]
    simp

lemma derived_beforeComparisons (hctx : ctx.Detached) (h : Steady ctx t) :
    ∃ u v, Derived "this" .code t u ∧ Derived "this" .code u v ∧
      Derived "this" .code v (beforeComparisons ctx t) := by
  have hreads : Advances (convertRead? ctx) t := by
    intro before s new rest _ hread
    rcases convertRead?_detached hctx hread with ⟨old, hne, heq, -⟩ | ⟨target, action, args, -, r, -, -, -, heq, -⟩
    · exact ⟨old, hne, heq⟩
    · exact ⟨target ++ ("." ++ (action ++ "(")) ++ (args ++ [')']), by simp, by rw [heq]; simp⟩
  have htitle : ∀ start ∈ ([[], "this."] : List Text), ∀ reference ∈ driverReferences,
      PlainSwap "this" (start ++ (reference ++ ".getTitle()")) "await page.title()" := by decide
  have hurl : ∀ start ∈ ([[], "this."] : List Text), ∀ reference ∈ driverReferences,
      PlainSwap "this" (start ++ (reference ++ ".getCurrentUrl()")) "page.url()" := by decide
  refine ⟨_, _, derived_reads hctx (exchanges_exchangeAll hreads) h.searches,
    derived_queries htitle (exchanges_exchangeAll (advances_convertQuery? _ _ _)) trivial, ?_⟩
  rw [beforeComparisons, hctx.page]
  exact derived_queries hurl (exchanges_exchangeAll (advances_convertQuery? _ _ _)) trivial

/-- **The counterpart of an expression** leaves no literal open, and it refers to `this` only if the
expression does. -/
lemma expression (hctx : ctx.Detached) (h : Steady ctx t) :
    IsClosed (expression ctx t) ∧ (Refers "this" (expression ctx t) → Refers "this" t) := by
  obtain ⟨u, v, hu, hv, hbefore⟩ := h.derived_beforeComparisons hctx
  have hlast : Derived "this" .code (beforeComparisons ctx t) (Conversion.expression ctx t) :=
    derived_comparisons (exchanges_exchangeAll (advances_convertEquals? _)) trivial h.comparisons
  refine ⟨?_, fun href => ?_⟩
  · rw [Text.IsClosed, hlast.after_eq, hbefore.after_eq, hv.after_eq, hu.after_eq, h.closed]
  · exact hu.refers isWordText_this (hv.refers isWordText_this (hbefore.refers isWordText_this
      (hlast.refers isWordText_this href)))

end Steady

end Restage.Conversion
