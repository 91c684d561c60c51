import Restage.Proofs.Conversion.LineNames
import Restage.Proofs.Java.DeclarationHeads

/-!
# Names in the lines of a statement

Each of the rules accounts for what its lines name (`rule_accounts`), and so does a statement.  Five
of the rules write the name of a class, and it is the one that they mention; the others start their
lines with a fixed word, with a reference to the page or with an assignment.

A name that is written into a line is a word, since it was read as one.  What is needed of the
context is collected in `Context.Neat`: the references to the page and to the object are the usual
ones, and the names in scope hold no blanks, so that none of them can be mistaken for the
construction of an object.
-/

namespace Restage.Conversion

open Text Java TypeScript List Option Verdict

variable {line : Int} {e element r receiver raw start value name : Text}

/-! ## Contexts -/

/-- Names in a context are such that lines can be read. -/
structure Context.Neat (ctx : Context) : Prop where
  page : ctx.pageRef = "page".toList ∨ ctx.pageRef = "this.page".toList
  self : ∀ name ∈ ctx.selfRef, name = "this".toList
  within : ∀ name ∈ ctx.className, isWordText name = true
  scope : ∀ name ∈ ctx.scope, ∀ c ∈ name, isBlank c = false

namespace Context.Neat

variable {ctx : Context}

lemma record (h : ctx.Neat) (action : Text) (target value : Option Text) :
    (ctx.record action target value).Neat :=
  ⟨h.page, h.self, h.within, h.scope⟩

lemma diagnose (h : ctx.Neat) (line : Int) (reason text : Text) : (ctx.diagnose line reason text).Neat :=
  ⟨h.page, h.self, h.within, h.scope⟩

lemma importClass (h : ctx.Neat) (name : Text) : (ctx.importClass name).Neat := by
  rw [Context.importClass]
  split <;> exact ⟨h.page, h.self, h.within, h.scope⟩

lemma declare (h : ctx.Neat) {name : Text} (hname : isWordText name = true) (type : Text) :
    (ctx.declare name type).Neat := by
  refine ⟨h.page, h.self, h.within, fun x hx => ?_⟩
  have hnames : ∀ locals : Table Text, ∀ y ∈ (locals.put name type).names, y = name ∨ y ∈ locals.names := by
    intro locals
    induction locals with
    | nil => exact fun y hy => .inl (mem_singleton.1 hy)
    | cons entry rest ih =>
      intro y hy
      rw [Table.put] at hy
      split_ifs at hy
      · exact .inr hy
      · rcases mem_cons.1 hy with rfl | hy
        · exact .inr mem_cons_self
        · exact (ih y hy).imp_right (mem_cons_of_mem _)
  have hblank : ∀ c ∈ name, isBlank c = false :=
    fun c hc => isBlank_eq_false_of_isWord (all_isWord hname c hc)
  rcases mem_append.1 hx with hx | hx
  · exact h.scope x (mem_append_left _ hx)
  · rcases hnames ctx.locals x hx with rfl | hx
    · exact hblank
    · exact h.scope x (mem_append_right _ hx)

end Context.Neat

/-! ## What rules say -/

variable {m : Mention} {tried : List Rule} {after : Context} {text : Text}

section Rules

variable {ms : List Mention} {t : Text} {ctx : Context}

/-- The lines of a verdict are accounted for, and its context is neat. -/
structure Verdict.Accounts (ms : List Mention) (v : Verdict) : Prop where
  lines : ∀ line ∈ v.lines.getD [], Accounted ms line
  neat : v.context.Neat

namespace Verdict.Accounts

lemma declined (h : ctx.Neat) : Accounts ms ⟨none, ctx⟩ := ⟨by simp, h⟩

lemma one {line : Text} (hline : Accounted ms line) (h : ctx.Neat) : Accounts ms ⟨some [line], ctx⟩ :=
  ⟨by simpa using hline, h⟩

end Verdict.Accounts

open Verdict (Accounts)
open Verdict.Accounts (declined one)

/-! ### Elements and the page -/

lemma accounted_call {w : Text} (hbuiltIn : w ∈ (["page", "this", "expect"] : List Text)) (r : Text) :
    Accounted ms ("await " ++ w ++ "." ++ r) := by
  have hw : isWordText w = true := by
    rw [mem_cons, mem_cons, mem_singleton] at hbuiltIn
    rcases hbuiltIn with rfl | rfl | rfl <;> decide
  intro usage name hread
  obtain ⟨rfl, _, _, rfl, -⟩ := read?_call hw hread
  exact .inl hbuiltIn

section

variable (h : ctx.Neat)
include h

lemma accounted_page (r : Text) : Accounted ms ("await " ++ ctx.pageRef ++ "." ++ r) := by
  rcases h.page with hpage | hpage
  · rw [hpage]
    exact accounted_call (by simp) r
  · rw [hpage]
    exact accounted_call (w := "this") (by simp) ("page." ++ r)

omit h in
lemma element?_cases (h : element? ctx e = some element) :
    (∃ r, element = ctx.pageRef ++ "." ++ r) ∨ ∃ r, element = "(await " ++ r := by
  unfold element? at h
  dsimp only at h
  split at h
  · rw [accessorCall?] at h
    split_ifs at h
    obtain ⟨self, -, rfl⟩ := map_eq_some_iff.1 h
    exact .inr ⟨_, by rw [append_assoc, append_assoc, append_assoc]⟩
  · split at h
    · obtain ⟨value, -, rfl⟩ := map_eq_some_iff.1 h
      exact .inl ⟨_, rfl⟩
    · obtain ⟨args, -, h⟩ := bind_eq_some_iff.1 h
      obtain ⟨first, -, h⟩ := bind_eq_some_iff.1 h
      obtain ⟨value, -, h⟩ := bind_eq_some_iff.1 h
      cases h
      exact .inl ⟨_, rfl⟩

lemma accounted_element (helement : element? ctx e = some element) (r : Text) :
    Accounted ms ("await " ++ element ++ r) := by
  rcases element?_cases helement with ⟨r', rfl⟩ | ⟨r', rfl⟩
  · simpa using accounted_page h (r' ++ r)
  · rw [append_assoc]
    exact accounted_of_start rfl rfl rfl fun _ => rfl

/-! ### Rules that mention no class -/

lemma waitLine_accounted (helement : element? ctx e = some element) (awaited : Awaited)
    (timeout : Option Text) : Accounted ms (waitLine element awaited timeout) := by
  cases awaited with
  | state name =>
    unfold waitLine
    simp only [append_assoc]
    rw [← append_assoc]
    exact accounted_element h helement _
  | expectation matcher =>
    unfold waitLine
    simp only [append_assoc]
    exact accounted_of_start rfl rfl rfl fun _ => rfl

lemma elementWait_accounts : Ensures (Accounts ms) (elementWait t ctx) := by
  rw [elementWait]
  split
  · exact .decline (declined h)
  · split
    next helement _ =>
      exact .bind fun timeout => .accept (one (waitLine_accounted h helement _ _) (h.record _ _ _))
    · exact .decline (declined h)

lemma driverWait_accounts : Ensures (Accounts ms) (driverWait t ctx) := by
  rw [driverWait]
  split
  · exact .decline (declined h)
  · split
    next _ helement =>
      exact .bind fun timeout => .accept (one (waitLine_accounted h helement _ _) (h.record _ _ _))
    · exact .decline (declined h)

lemma sleep_accounts : Ensures (Accounts ms) (sleep t ctx) := by
  rw [sleep]
  split
  · exact .decline (declined h)
  · refine .bind fun duration => .accept (one ?_ (h.record _ _ _))
    simpa using accounted_page h ("waitForTimeout(" ++ duration ++ ");")

lemma log_accounts : Ensures (Accounts ms) (log t ctx) := by
  refine .ofOption (declined h) <| .bind fun _ _ => .bind fun _ _ => .some (one ?_ h)
  exact accounted_of_start rfl rfl rfl fun _ => rfl

lemma navigate_accounts : Ensures (Accounts ms) (navigate t ctx) := by
  refine .ofOption (declined h) <| .bind fun _ _ => .bind fun _ _ => .bind fun address _ => .some ?_
  refine one ?_ (h.record _ _ _)
  simpa using accounted_page h ("goto(" ++ expression ctx address ++ ");")

lemma history_accounts : Ensures (Accounts ms) (history t ctx) := by
  refine .ofOption (declined h) <| .bind fun _ _ => .bind fun found _ => .bind fun _ _ =>
    .ite (fun _ => .some (one ?_ (h.record _ _ _))) fun _ => .none
  simpa using accounted_page h (found.1 ++ "();")

end

lemma accounted_expectation (soft : Bool) (r : Text) :
    Accounted ms ("await " ++ expectation soft ++ "(" ++ r) := by
  cases soft with
  | false =>
    exact accounted_of_start rfl rfl rfl fun _ => rfl
  | true => exact accounted_call (w := "expect") (by simp) ("soft(" ++ r)

/-- Every acceptance is accounted for. -/
abbrev SaysAccounted (ms : List Mention) : Option (Text × Context) → Prop :=
  Says fun line after => Accounts ms ⟨some [line], after⟩

lemma comparison?_accounts (h : ctx.Neat) (soft negated : Bool) (args : List Text) :
    SaysAccounted ms (comparison? ctx soft negated args) := by
  rcases args with _ | ⟨_, _ | ⟨_, _⟩⟩
  · exact .none
  · exact .none
  · refine .some (one ?_ (h.record _ _ _))
    simp only [append_assoc]
    cases soft <;> exact accounted_of_start rfl rfl rfl fun _ => rfl

lemma visibility?_accounts (h : ctx.Neat) (soft : Bool) (claim : Claim) (condition message : Text) :
    SaysAccounted ms (visibility? ctx soft claim condition message) := by
  cases claim with
  | isTrue | isFalse =>
    refine .bind fun _ _ => .bind fun element _ => .some (one ?_ (h.record _ _ _))
    simpa using accounted_expectation soft (element ++ message ++ ")." ++ _)
  | equals | notEquals | isNull | isNotNull => exact .none

lemma valueTest?_accounts (h : ctx.Neat) (soft : Bool) (claim : Claim) (args : List Text) :
    SaysAccounted ms (valueTest? ctx soft claim args) := by
  cases args with
  | nil => exact .none
  | cons condition rest =>
    refine .or (visibility?_accounts h _ _ _ _) (.some (one ?_ (h.record _ _ _)))
    cases soft <;> exact accounted_of_start rfl rfl rfl fun _ => rfl

lemma assertion_accounts (h : ctx.Neat) : Ensures (Accounts ms) (assertion t ctx) := by
  refine .ofOption (declined h) (.bind fun a _ => ?_)
  split
  · exact comparison?_accounts h _ _ _
  · exact comparison?_accounts h _ _ _
  · exact valueTest?_accounts h _ _ _

lemma elementAssertion_accounts (h : ctx.Neat) :
    Ensures (Accounts ms) (elementAssertion t ctx) := by
  refine .ofOption (declined h) <| .bind fun call _ => .bind fun element _ => .bind fun soft _ =>
    .bind fun matcher _ => .some (one ?_ (h.record _ _ _))
  generalize (if matcher = "toHaveText".toList then _ else _ : List Text) = args
  simpa using accounted_expectation soft.1
    (element ++ ")." ++ matcher ++ "(" ++ join ", " args ++ ");")

/-! ### What precedes an element -/

lemma blankEnds_eq (h : r ∈ blankEnds t) :
    ∃ gap : Text, t = gap ++ r ∧ ∀ c ∈ gap, isBlank c = true := by
  induction t with
  | nil => exact ⟨[], by simpa [blankEnds] using h, by simp⟩
  | cons c t ih =>
    rw [blankEnds] at h
    split_ifs at h with hc
    · rcases mem_append.1 h with h | h
      · obtain ⟨gap, rfl, hgap⟩ := ih h
        exact ⟨c :: gap, rfl, forall_mem_cons.2 ⟨hc, hgap⟩⟩
      · exact ⟨[], (mem_singleton.1 h).symm, by simp⟩
    · exact ⟨[], (mem_singleton.1 h).symm, by simp⟩

lemma exists_headsDeclaration (h : start ∈ declarationEnds t) :
    ∃ u gap : Text, t = u ++ '=' :: gap ++ start ∧ HeadsDeclaration u ∧ Plain u ∧
      ∀ c ∈ gap, isBlank c = true := by
  obtain ⟨first, hfirst, h⟩ := mem_flatMap.1 h
  obtain ⟨rest, hrest, h⟩ := mem_flatMap.1 h
  split at h
  next after hread =>
    obtain ⟨⟨name, r⟩, hname, hequals⟩ := bind_eq_some_iff.1 hread
    obtain ⟨blank, hblank, hword⟩ := bind_eq_some_iff.1 hname
    have hskips : Skips t r :=
      ((Skips.afterFinal hfirst).trans (.typeEnds hrest)).trans
        ((Skips.someBlanks? hblank).trans (.word? hword))
    obtain ⟨u, hu, hplain⟩ := hskips.trans (.blanks r)
    rw [literal?_eq_some.1 hequals] at hu
    obtain ⟨gap, rfl, hgap⟩ := blankEnds_eq h
    refine ⟨u, gap, by rw [hu]; simp, ?_, hplain, hgap⟩
    -- Everything that was read precedes the equals sign.
    have ht : t = u ++ '=' :: (gap ++ start) := hu
    rw [ht, afterFinal_equals] at hfirst
    obtain ⟨first', hfirst', rfl⟩ := mem_map.1 hfirst
    rw [typeEnds_equals] at hrest
    obtain ⟨rest', hrest', rfl⟩ := mem_map.1 hrest
    rw [word?_equals] at hname
    obtain ⟨⟨name', r'⟩, hname', hsame⟩ := map_eq_some_iff.1 hname
    cases hsame
    have hcut : blanks (r' ++ '=' :: (gap ++ start)) = '=' :: (gap ++ start) := literal?_eq_some.1 hequals
    rw [blanks_equals] at hcut
    exact ⟨first', hfirst', rest', hrest', name', r', hname', by simpa using hcut⟩
  · cases h

/-- What is read before an element. -/
inductive Precedes : Text → Prop
  | nothing : Precedes []
  | returning {gap : Text} : (∀ c ∈ gap, isBlank c = true) → Precedes ("return" ++ gap)
  | declaring {u gap : Text} : HeadsDeclaration u → Plain u → (∀ c ∈ gap, isBlank c = true) →
      Precedes (u ++ '=' :: gap)
  | assigning {name gap gap' : Text} : name ≠ [] → (∀ c ∈ name, isDotted c = true) →
      (∀ c ∈ gap, isBlank c = true) → (∀ c ∈ gap', isBlank c = true) →
      Precedes (name ++ gap ++ '=' :: gap')

lemma exists_precedes (h : start ∈ actionStarts t) :
    ∃ before, t = before ++ start ∧ Precedes before := by
  rw [actionStarts, mem_append, mem_append, mem_append] at h
  rcases h with ((h | h) | h) | h
  · rw [returnEnds] at h
    split at h
    next r hr =>
      obtain ⟨gap, rfl, hgap⟩ := blankEnds_eq (dropLast_subset _ h)
      exact ⟨"return" ++ gap, by rw [literal?_eq_some.1 hr, append_assoc], .returning hgap⟩
    · cases h
  · obtain ⟨u, gap, ht, hu, hplain, hgap⟩ := exists_headsDeclaration h
    exact ⟨u ++ '=' :: gap, ht, .declaring hu hplain hgap⟩
  · rw [assignmentEnds] at h
    split at h
    next r hr =>
      obtain ⟨⟨name, r'⟩, hname, hequals⟩ := bind_eq_some_iff.1 hr
      obtain ⟨ht, hne, hdotted⟩ := run?_eq_some hname
      obtain ⟨gap, hcut, hgap⟩ := blanks_eq r'
      obtain ⟨gap', rfl, hgap'⟩ := blankEnds_eq h
      refine ⟨name ++ gap ++ '=' :: gap', ?_, .assigning hne hdotted hgap hgap'⟩
      have hequals : blanks r' = '=' :: (gap' ++ start) := literal?_eq_some.1 hequals
      rw [ht, hcut, hequals]
      simp
    · cases h
  · rw [mem_singleton.1 h]
    exact ⟨[], rfl, .nothing⟩

lemma trim_append_equals {gap : Text} (hgap : ∀ c ∈ gap, isBlank c = true) :
    trim (start ++ '=' :: gap) = trimLeft start ++ ['='] := by
  have hleft : trimLeft (start ++ '=' :: gap) = trimLeft start ++ '=' :: gap := by
    rw [trimLeft, trimLeft, dropWhile_append]
    split_ifs with hempty
    · rw [isEmpty_iff.1 hempty]
      rfl
    · rfl
  have hright : (gap.reverse ++ ['=']) ++ (trimLeft start).reverse =
      gap.reverse ++ '=' :: (trimLeft start).reverse := by simp
  rw [trim, hleft, trimRight, reverse_append, reverse_cons, hright,
    dropWhile_append_of_pos fun c hc => hgap c (mem_reverse.1 hc)]
  exact (reverse_cons ..).trans (by rw [reverse_reverse])

lemma dropEnd_append_equals (start : Text) :
    dropEnd (fun c => c == '=' || c == ' ') (start ++ ['=']) = dropEnd (fun c => c == '=' || c == ' ') start := by
  rw [dropEnd, reverse_append]
  rfl

/-- What precedes an element is plain up to an equals sign at its end. -/
lemma Precedes.plain (h : Precedes raw) :
    Plain (trim (dropEnd (fun c => c == '=' || c == ' ') (trim raw))) := by
  have hsub : ∀ {u start : Text}, u ⊆ start → Plain start → Plain u :=
    fun hu hstart => all_eq_true.2 fun c hc => all_eq_true.1 hstart c (hu hc)
  have hequals : ∀ {start gap : Text}, Plain start → (∀ c ∈ gap, isBlank c = true) →
      Plain (trim (dropEnd (fun c => c == '=' || c == ' ') (trim (start ++ '=' :: gap)))) := by
    intro start gap hstart hgap
    rw [trim_append_equals hgap, dropEnd_append_equals]
    have hleft : trimLeft start ⊆ start := (dropWhile_sublist isBlank).subset
    exact hsub (Subset.trans (trim_subset _) (Subset.trans (dropEnd_subset _ _) hleft)) hstart
  cases h with
  | nothing => decide
  | returning hgap =>
    exact hsub (Subset.trans (trim_subset _) (Subset.trans (dropEnd_subset _ _) (trim_subset _)))
      (.append (by decide) (.of_blanks hgap))
  | declaring _ hplain hgap => exact hequals hplain hgap
  | assigning _ hname hgap hgap' =>
    refine hequals (.append (all_eq_true.2 fun c hc => ?_) (.of_blanks hgap)) hgap'
    rcases Bool.or_eq_true_iff.1 (hname c hc) with hword | hdot
    · exact isPlain_of_isWord hword
    · rw [beq_iff_eq.1 hdot]
      decide

lemma declaredVariable?_word {accept : Text → Option Text} {type : Text}
    (h : declaredVariable? accept t = some (type, name, r)) : WordIn t name := by
  obtain ⟨start, hstart, h⟩ := exists_of_findSome?_eq_some h
  obtain ⟨rest, hrest, h⟩ := exists_of_findSome?_eq_some h
  obtain ⟨found, hfound, h⟩ := bind_eq_some_iff.1 h
  obtain ⟨r', -, h⟩ := bind_eq_some_iff.1 h
  obtain ⟨r'', -, h⟩ := bind_eq_some_iff.1 h
  obtain ⟨gap, hgap, hfound⟩ := bind_eq_some_iff.1 hfound
  cases h
  have hskips := (Skips.afterFinal hstart).trans ((Skips.typeEnds hrest).trans (.someBlanks? hgap))
  exact (wordIn_of_word? hfound).mono hskips.suffix.isInfix

lemma initialised?_parts {found : Initialised} (h : initialised? t = some found) :
    WordIn t found.name ∧ ∃ rest, initialValue? rest = some found.value ∧ rest <:+ t := by
  obtain ⟨start, hstart, h⟩ := exists_of_findSome?_eq_some h
  obtain ⟨⟨type, behind⟩, htype, h⟩ := bind_eq_some_iff.1 h
  obtain ⟨⟨name, rest⟩, hname, h⟩ := bind_eq_some_iff.1 h
  obtain ⟨value, hvalue, h⟩ := bind_eq_some_iff.1 h
  cases h
  obtain ⟨gap, hgap, hname⟩ := bind_eq_some_iff.1 hname
  obtain ⟨after, hafter, hvalue⟩ := bind_eq_some_iff.1 hvalue
  have hsuffix : gap <:+ t :=
    (someBlanks?_isSuffix hgap).trans ((run?_isSuffix htype).trans (Skips.afterFinal hstart).suffix)
  refine ⟨(wordIn_of_word? hname).mono hsuffix.isInfix, after, hvalue, ?_⟩
  exact (literal?_isSuffix hafter).trans ((blanks_isSuffix rest).trans ((word?_parts hname).2.trans hsuffix))

lemma convertBefore_cases (h : ctx.Neat) (hraw : Precedes raw) :
    (convertBefore raw ctx).2.Neat ∧ ((convertBefore raw ctx).1 = [] ∨
      (convertBefore raw ctx).1 = "return ".toList ∨
      ∃ start, (convertBefore raw ctx).1 = start ++ " = " ∧ Plain start) := by
  unfold convertBefore
  dsimp only
  split_ifs
  · exact ⟨h, .inl rfl⟩
  · exact ⟨h, .inr (.inl rfl)⟩
  · split
    next type name r hdeclared =>
      have hname := (declaredVariable?_word hdeclared).word
      have hplain : Plain ("const " ++ name) := .append (by decide) (.of_word hname)
      exact ⟨h.declare hname type, .inr (.inr ⟨"const " ++ name, rfl, hplain⟩)⟩
    · exact ⟨h, .inr (.inr ⟨_, rfl, hraw.plain⟩)⟩

lemma elementAction_accounts (h : ctx.Neat) : Ensures (Accounts ms) (elementAction t ctx) := by
  refine .ofOption (declined h) <| .bind fun found hfound => .bind fun element helement => .some ?_
  obtain ⟨start, hstart, hread⟩ := exists_of_findSome?_eq_some hfound
  obtain ⟨call, -, rfl⟩ := map_eq_some_iff.1 hread
  obtain ⟨before, rfl, hprecedes⟩ := exists_precedes hstart
  rw [consumed_append]
  obtain ⟨hneat, hbefore⟩ := convertBefore_cases h hprecedes
  refine one ?_ (hneat.record _ _ _)
  have hline : ∀ r : Text, Accounted ms
      ((convertBefore before ctx).1 ++ ("await " ++ (element ++ r))) := by
    intro r
    rcases hbefore with hbefore | hbefore | ⟨assigned, hbefore, hplain⟩
    · rw [hbefore]
      exact accounted_element h helement r
    · rw [hbefore]
      exact accounted_of_start rfl rfl rfl fun _ => rfl
    · rw [hbefore]
      intro usage name hname
      obtain ⟨-, _, hnew⟩ := read?_assignment hplain hname
      cases hnew
  simp only [append_assoc]
  exact hline _

/-! ### Literals -/

lemma isLiteral_cases (h : isLiteral value = true) :
    value = "null".toList ∨ ∃ c r, value = c :: r ∧ c ≠ 'n' := by
  rw [isLiteral, Bool.or_eq_true, Bool.or_eq_true] at h
  rcases h with (hstring | hnumber) | hnamed
  · right
    rw [isString] at hstring
    split at hstring
    next read rest hread =>
      unfold string? at hread
      split at hread
      · exact ⟨_, _, rfl, by decide⟩
      · cases hread
    · cases hstring
  · right
    cases hsign : literal? "-" value with
    | some r => exact ⟨'-', r, literal?_eq_some.1 hsign, by decide⟩
    | none =>
      cases value with
      | nil => cases hnumber
      | cons c r =>
        refine ⟨c, r, rfl, ?_⟩
        rintro rfl
        cases hnumber
  · rw [contains_iff_mem, mem_cons, mem_cons, mem_singleton] at hnamed
    rcases hnamed with rfl | rfl | rfl
    · exact .inr ⟨'t', _, rfl, by decide⟩
    · exact .inr ⟨'f', _, rfl, by decide⟩
    · exact .inl rfl

lemma isLiteral_plainLiteral_cases (h : isLiteral value = true) :
    plainLiteral value = "null".toList ∨ ∃ c r, plainLiteral value = c :: r ∧ c ≠ 'n' := by
  rcases isLiteral_cases h with rfl | ⟨c, r, rfl, hc⟩
  · exact .inl rfl
  right
  rw [plainLiteral]
  split
  next s d rest hreverse =>
    split_ifs
    · cases r with
      | nil => cases hreverse
      | cons e r => exact ⟨c, _, rfl, hc⟩
    · exact ⟨c, r, rfl, hc⟩
  · exact ⟨c, r, rfl, hc⟩

lemma constructed?_of_literal (h : t = "null".toList ∨ ∃ c r, t = c :: r ∧ c ≠ 'n') (r : Text) :
    constructed? (t ++ r) = none := by
  rcases h with rfl | ⟨c, rest, rfl, hc⟩
  · rfl
  · have hnew : literal? "new" (c :: rest ++ r) = none := by
      refine eq_none_iff_forall_ne_some.2 fun u hu => hc ?_
      exact some.inj (congrArg head? (literal?_eq_some.1 hu))
    rw [constructed?, hnew]
    rfl

lemma literalDeclaration_accounts (h : ctx.Neat) :
    Ensures (Accounts ms) (literalDeclaration t ctx) := by
  refine .ofOption (declined h) <| .bind fun found hfound => .ite (fun hliteral => .some ?_) fun _ => .none
  have hname := (initialised?_parts hfound).1.word
  refine one (fun usage name hread => ?_) (h.declare hname _)
  rw [append_assoc] at hread
  obtain ⟨-, _, hnew⟩ := read?_assignment (.append (by decide) (.of_word hname)) hread
  rw [constructed?_of_literal (isLiteral_plainLiteral_cases hliteral)] at hnew
  cases hnew

/-! ### Rules that mention a class -/

lemma accounted_assignment {before : Text} (hbefore : Plain before) (hname : isWordText name = true)
    (hm : m.usage = .constructed ∧ m.name = name) (hmem : m ∈ ms) :
    Accounted ms (before ++ " = new " ++ name ++ "(" ++ r) := by
  have hcut : before ++ " = new " ++ name ++ "(" ++ r =
      before ++ " = " ++ ("new " ++ name ++ "(" ++ r) := by
    simp only [append_assoc]
    rfl
  intro usage found hread
  rw [hcut] at hread
  obtain ⟨rfl, _, hnew⟩ := read?_assignment hbefore hread
  rw [constructed?_new hname] at hnew
  cases hnew
  exact .inr ⟨m, hmem, hm⟩

lemma accounted_construction {k : Text} (hk : k = "return ".toList ∨ k = "await ".toList)
    (hname : isWordText name = true) (hm : m.usage = .constructed ∧ m.name = name) (hmem : m ∈ ms) :
    Accounted ms (k ++ ("new " ++ name ++ "(" ++ r)) := by
  intro usage found hread
  have hnew := constructed?_new hname r
  cases usage with
  | constructed =>
    have hstart : constructionStart? (k ++ ("new " ++ name ++ "(" ++ r)) =
        some ("new " ++ name ++ "(" ++ r) := by rcases hk with rfl | rfl <;> rfl
    rw [Usage.read?, hstart, bind_some, hnew] at hread
    cases hread
    exact .inr ⟨m, hmem, hm⟩
  | base | thrown | receiver =>
    rcases hk with rfl | rfl <;> cases hread
  | parameter | result | property | keywords | unwritten => cases hread

lemma newObject?_words {found : NewObject} (h : newObject? t = some found) :
    WordIn t found.name ∧ WordIn t found.className := by
  have hfrom : ∀ {typed : Bool} {u : Text}, newObjectFrom? typed u = some found → u <:+ t →
      WordIn t found.name ∧ WordIn t found.className := by
    intro typed u hu hsuffix
    obtain ⟨⟨name, r⟩, hname, hu⟩ := bind_eq_some_iff.1 hu
    obtain ⟨r', hr', hu⟩ := bind_eq_some_iff.1 hu
    obtain ⟨⟨className, r''⟩, hclass, hu⟩ := bind_eq_some_iff.1 hu
    obtain ⟨_, -, hu⟩ := bind_eq_some_iff.1 hu
    cases hu
    refine ⟨(wordIn_of_word? hname).mono hsuffix.isInfix, (constructed?_parts hclass).1.mono ?_⟩
    exact ((blanks_isSuffix r').trans ((literal?_isSuffix hr').trans
      ((blanks_isSuffix r).trans ((word?_parts hname).2.trans hsuffix)))).isInfix
  obtain ⟨start, hstart, hread⟩ := exists_of_findSome?_eq_some h
  have hstart := (Skips.afterFinal hstart).suffix
  rcases or_eq_some_iff.1 hread with hread | ⟨-, hread⟩
  · obtain ⟨behind, hbehind, hread⟩ := bind_eq_some_iff.1 hread
    obtain ⟨⟨type, rest⟩, htype, hbehind⟩ := bind_eq_some_iff.1 hbehind
    exact hfrom hread ((someBlanks?_isSuffix hbehind).trans ((word?_parts htype).2.trans hstart))
  · exact hfrom hread hstart

lemma newPageObject_accounts (h : ctx.Neat) :
    Ensures (Accounts (newPageMentions t ctx)) (newPageObject t ctx) := by
  refine .ofOption (declined h) <| .bind fun found hfound => .ite (fun hpage => .some ?_) fun _ => .none
  obtain ⟨⟨hname, -⟩, hclass, -⟩ := newObject?_words hfound
  have hmem : (⟨.constructed, found.className, ctx.className⟩ : Mention) ∈ newPageMentions t ctx := by
    rw [newPageMentions, hfound]
    dsimp only
    rw [if_pos hpage]
    exact mem_singleton.2 rfl
  refine one ?_ ((h.importClass _).declare hname _)
  have hbefore : Plain ((if found.typed then "const " else [] : Text) ++ found.name) := by
    refine .append ?_ (.of_word hname)
    split_ifs <;> decide
  rw [append_assoc _ ctx.pageRef]
  exact accounted_assignment hbefore hclass ⟨rfl, rfl⟩ hmem

lemma chainedCall?_parts {className call : Text} (h : chainedCall? t = some (className, call)) :
    WordIn t className ∧ ∃ name args, call <:+: t ∧ call = name ++ "(" ++ args ++ ")" ∧
      isWordText name = true := by
  obtain ⟨⟨className, inside⟩, hclass, h⟩ := bind_eq_some_iff.1 h
  obtain ⟨⟨flat, behind⟩, hbehind, h⟩ := bind_eq_some_iff.1 h
  obtain ⟨start, hstart, h⟩ := bind_eq_some_iff.1 h
  obtain ⟨⟨name, rest⟩, hname, h⟩ := bind_eq_some_iff.1 h
  obtain ⟨raw, hraw, h⟩ := bind_eq_some_iff.1 h
  obtain ⟨args, harguments, h⟩ := bind_eq_some_iff.1 h
  cases h
  obtain ⟨hclass, hinside⟩ := constructed?_parts hclass
  obtain ⟨gap, ending, hend, -⟩ := callArguments?_eq_some harguments
  have hcall : (name ++ "(" ++ args ++ ")" : Text) <+: start := by
    rw [(word?_eq_some hname).1, literal?_eq_some.1 hraw, hend]
    exact ⟨gap ++ ';' :: ending, by simp⟩
  have hbehind : behind <:+ inside := by
    rw [(flatArguments?_eq_some_iff.1 hbehind).1]
    exact ⟨flat ++ [')'], by simp⟩
  have hsuffix : start <:+ t := (literal?_isSuffix hstart).trans (hbehind.trans hinside)
  exact ⟨hclass, name, args, hcall.isInfix.trans hsuffix.isInfix, rfl, isWordText_of_word? hname⟩

lemma chainedPageCall_accounts (h : ctx.Neat) :
    Ensures (Accounts (chainedMentions t ctx)) (chainedPageCall t ctx) := by
  rw [chainedPageCall]
  split
  · exact .decline (declined h)
  next className call hcall =>
    split_ifs with hpage
    · refine .ofOption (declined (h.importClass _)) (.bind fun found hfound => .some ?_)
      refine one ?_ (h.importClass _)
      obtain ⟨⟨hclass, -⟩, -⟩ := chainedCall?_parts hcall
      have hmem : (⟨.constructed, className, ctx.className⟩ : Mention) ∈ chainedMentions t ctx := by
        rw [chainedMentions, hcall]
        dsimp only
        rw [if_pos hpage, hfound]
        exact mem_singleton.2 rfl
      have hline : ∀ r : Text, Accounted (chainedMentions t ctx)
          ("await " ++ ("new " ++ className ++ "(" ++ r)) :=
        fun r => accounted_construction (.inr rfl) hclass ⟨rfl, rfl⟩ hmem
      simp only [append_assoc] at hline ⊢
      exact hline _
    · exact .decline (declined h)

lemma throw_accounts (h : ctx.Neat) :
    Ensures (Accounts (thrownMentions t ctx)) (throw t ctx) := by
  have hthrown : ∀ {ms : List Mention} (name r : Text), isWordText name = true →
      (name = "Error".toList ∨ ∃ m ∈ ms, m.usage = .thrown ∧ m.name = name) →
      Accounted ms ("throw " ++ ("new " ++ name ++ "(" ++ r)) := by
    intro ms name r hname hms usage found hread
    cases usage with
    | thrown =>
      rw [Usage.read?, literal?_append, bind_some, constructed?_new hname r] at hread
      cases hread
      exact hms.imp_left fun herror => by simp [herror, Usage.builtIn]
    | base | constructed | receiver =>
      cases hread
    | parameter | result | property | keywords | unwritten => cases hread
  refine .ofOption (declined h) <| .bind fun found hfound => .bind fun args harguments =>
    .ite (fun hexception => .some (one ?_ (h.importClass _))) fun _ => .some (one ?_ h)
  · obtain ⟨_, -, hnew⟩ := bind_eq_some_iff.1 hfound
    obtain ⟨_, -, -, -, hname⟩ := constructed?_eq_some hnew
    have hmem : (⟨.thrown, found.1, ctx.className⟩ : Mention) ∈ thrownMentions t ctx := by
      rw [thrownMentions, hfound]
      dsimp only
      rw [if_pos ⟨isSome_iff_exists.2 ⟨args, harguments⟩, hexception⟩]
      exact mem_singleton.2 rfl
    have hline := fun r => hthrown _ r hname (.inr ⟨_, hmem, rfl, rfl⟩)
    simp only [append_assoc] at hline ⊢
    exact hline _
  · rw [append_assoc]
    exact hthrown "Error" _ (by decide) (.inl rfl)

lemma accounted_return (h : constructed? value = none) :
    Accounted ms ("return " ++ value) := by
  refine accounted_of_none fun usage => ?_
  cases usage with
  | constructed =>
    have hstart : constructionStart? ("return " ++ value) = some value := rfl
    rw [Usage.read?, hstart, bind_some, h]
    rfl
  | base | thrown | receiver | parameter | result | property | keywords | unwritten => rfl

lemma constructed?_of_unblank (h : ∀ c ∈ value, isBlank c = false) :
    constructed? value = none := by
  refine eq_none_iff_forall_ne_some.2 fun found hfound => ?_
  obtain ⟨gap, rfl, hne, hgap, -⟩ := constructed?_eq_some hfound
  obtain ⟨c, rest, rfl⟩ := exists_cons_of_ne_nil hne
  have hblank := h c (by simp)
  rw [hgap c mem_cons_self] at hblank
  cases hblank

lemma returns_accounts (h : ctx.Neat) :
    Ensures (Accounts (returnedMentions t ctx)) (returns t ctx) := by
  refine .ofOption (declined h) (.bind fun value hvalue => ?_)
  split_ifs with hempty hself hplain
  · exact .some (one (accounted_of_start rfl rfl rfl fun _ => rfl) h)
  · exact .some (one (accounted_of_start rfl rfl rfl fun _ => rfl) h)
  · refine .some (one ?_ h)
    refine accounted_return ?_
    rcases hplain with hliteral | hscope
    · exact constructed?_of_literal (isLiteral_cases hliteral) _
    · refine constructed?_of_unblank fun c hc => ?_
      rcases mem_append.1 hc with hc | hc
      · exact h.scope value (contains_iff_mem.1 hscope) c hc
      · rw [mem_singleton.1 hc]
        decide
  · refine .bind fun name hname => .ite (fun hpage => .some (one ?_ (h.importClass _))) fun _ => .none
    have hword : isWordText name = true := by
      obtain ⟨found, hfound, hname⟩ := bind_eq_some_iff.1 hname
      obtain ⟨_, -, hname⟩ := bind_eq_some_iff.1 hname
      obtain ⟨_, -, -, -, hword⟩ := constructed?_eq_some hfound
      cases hname
      exact hword
    have hmem : (⟨.constructed, name, ctx.className⟩ : Mention) ∈ returnedMentions t ctx := by
      rw [returnedMentions, hvalue]
      dsimp only
      rw [if_neg (by tauto), hname]
      dsimp only
      rw [if_pos hpage]
      exact mem_singleton.2 rfl
    have hline : ∀ r : Text,
        Accounted (returnedMentions t ctx) ("return " ++ ("new " ++ name ++ "(" ++ r)) :=
      fun r => accounted_construction (.inl rfl) hword ⟨rfl, rfl⟩ hmem
    simp only [append_assoc] at hline ⊢
    exact hline _

/-! ### Calls of known methods -/

lemma receiverAndName_chars (callee : Text) (h : isDottedName callee = true) :
    (∀ c ∈ (receiverAndName callee).1, isDotted c = true) ∧
      ∀ c ∈ (receiverAndName callee).2, isWord c = true := by
  have hstart : ∀ c, isNameStart c = true → isDotted c = true := by
    intro c hc
    rw [isDotted, isWord_of_isNameStart hc]
    rfl
  have hall : ∀ c ∈ callee, isDotted c = true := by
    cases callee with
    | nil => cases h
    | cons c r =>
      rw [isDottedName, Bool.and_eq_true] at h
      exact forall_mem_cons.2 ⟨hstart c h.1, all_eq_true.1 h.2⟩
  constructor
  · intro c hc
    refine hall c ?_
    simp only [receiverAndName, beforeLast?] at hc
    split at hc
    · cases hc
    next d r hcut =>
      have hmem : c ∈ callee.reverse.dropWhile (· ≠ '.') := by
        rw [hcut]
        exact mem_cons_of_mem _ (mem_reverse.1 hc)
      exact mem_reverse.1 ((dropWhile_sublist _).subset hmem)
  · intro c hc
    simp only [receiverAndName, afterLast, mem_reverse] at hc
    have hdotted := hall c (mem_reverse.1 (( takeWhile_prefix _).subset hc))
    have hdot := mem_takeWhile_imp hc
    rw [isDotted, Bool.or_eq_true, beq_iff_eq] at hdotted
    exact hdotted.resolve_right (of_decide_eq_true hdot)

lemma isWordText_of_ne_nil (hne : name ≠ []) (hname : ∀ c ∈ name, isWord c = true) :
    isWordText name = true := by
  rw [isWordText, all_eq_true.2 hname]
  simpa using hne

lemma accounted_function (hname : ∀ c ∈ name, isWord c = true) (r : Text) :
    Accounted ms ("await " ++ (name ++ '(' :: r)) := by
  refine accounted_of_none fun usage => ?_
  by_cases hne : name = []
  · subst hne
    cases usage <;> rfl
  have hw := isWordText_of_ne_nil hne hname
  have hword : word? (name ++ '(' :: r) = some (name, '(' :: r) := by
    refine word?_append hw fun c hc => ?_
    cases hc
    decide
  cases usage with
  | constructed =>
    have hstart : constructionStart? ("await " ++ (name ++ '(' :: r)) = some (name ++ '(' :: r) := rfl
    rw [Usage.read?, hstart, bind_some, constructed?_eq_none hw (by decide) (by decide)]
    rfl
  | receiver =>
    rw [Usage.read?, literal?_append, bind_some, hword]
    rfl
  | base | thrown | parameter | result | property | keywords | unwritten => rfl

lemma append_open_inj {u v x y : Text} (hu : ∀ c ∈ u, isDotted c = true) (hv : ∀ c ∈ v, isDotted c = true)
    (h : u ++ '(' :: x = v ++ '(' :: y) : u = v := by
  have hcut : ∀ {t : Text} (r : Text), (∀ c ∈ t, isDotted c = true) →
      (t ++ '(' :: r).takeWhile isDotted = t := by
    intro t r ht
    rw [takeWhile_append_of_pos ht, takeWhile_cons_of_neg (by decide), append_nil]
  rw [← hcut x hu, h, hcut y hv]

lemma isDotted_of_isWord (h : ∀ c ∈ t, isWord c = true) : ∀ c ∈ t, isDotted c = true := by
  intro c hc
  rw [isDotted, h c hc]
  rfl

lemma accounted_method (hreceiver : ∀ c ∈ receiver, isDotted c = true)
    (hname : ∀ c ∈ name, isWord c = true) (hm : m.usage = .receiver name ∧ m.name = receiver)
    (hmem : m ∈ ms) : Accounted ms ("await " ++ receiver ++ "." ++ (name ++ '(' :: r)) := by
  have hword : ∀ {t : Text}, (∀ c ∈ t, isDotted c = true) → '.' ∉ t → ∀ c ∈ t, isWord c = true := by
    intro t ht hdot c hc
    have hdotted := ht c hc
    rw [isDotted, Bool.or_eq_true, beq_iff_eq] at hdotted
    exact hdotted.resolve_right fun hc' => hdot (hc' ▸ hc)
  intro usage found hread
  by_cases hdot : '.' ∈ receiver
  · -- Only the first part of a dotted receiver could be read, but no method follows it.
    obtain ⟨first, rest, rfl, hfirst⟩ := eq_append_cons_of_mem hdot
    rw [forall_mem_append, forall_mem_cons] at hreceiver
    by_cases hne : first = []
    · subst hne
      cases usage <;> cases hread
    have hcut : "await " ++ (first ++ '.' :: rest) ++ "." ++ (name ++ '(' :: r) =
        "await " ++ first ++ "." ++ (rest ++ '.' :: name ++ '(' :: r) := by simp
    rw [hcut] at hread
    obtain ⟨-, method, rest', -, hcall, hmethod⟩ :=
      read?_call (isWordText_of_ne_nil hne (hword hreceiver.1 hfirst)) hread
    rw [append_assoc method] at hcall
    have hsame : rest ++ '.' :: name = method :=
      append_open_inj (forall_mem_append.2 ⟨hreceiver.2.2, forall_mem_cons.2
        ⟨by decide, isDotted_of_isWord hname⟩⟩) (isDotted_of_isWord (all_isWord hmethod)) hcall
    have hword := all_isWord hmethod '.' (hsame ▸ by simp)
    cases hword
  have hw := hword hreceiver hdot
  by_cases hne : receiver = []
  · subst hne
    cases usage <;> cases hread
  obtain ⟨rfl, method, rest, rfl, hcall, hmethod⟩ := read?_call (isWordText_of_ne_nil hne hw) hread
  rw [append_assoc] at hcall
  have hsame := append_open_inj (isDotted_of_isWord hname) (isDotted_of_isWord (all_isWord hmethod)) hcall
  exact .inr ⟨m, hmem, by rw [hm.1, hsame], hm.2⟩

/-- The call of an own method names a function alone, or a method of the class or of the object. -/
lemma ownCall?_cases (h : ctx.Neat) {line : Text} {args : List Text}
    (hline : ownCall? ctx name args = some line) : ∃ r,
    line = "await " ++ (name ++ '(' :: r) ∨
    (∃ className, (∀ c ∈ className, isWord c = true) ∧
      ownCallMentions ctx name = [⟨.receiver name, className, ctx.className⟩] ∧
      line = "await " ++ className ++ "." ++ (name ++ '(' :: r)) ∨
    line = "await " ++ "this" ++ "." ++ (name ++ '(' :: r) := by
  rw [ownCall?] at hline
  by_cases hfunction : ctx.functions.contains name = true
  · rw [if_pos hfunction] at hline
    cases hline
    exact ⟨_, .inl (by simp only [append_assoc]; rfl)⟩
  rw [if_neg hfunction] at hline
  split at hline
  next className hclass =>
    cases hline
    refine ⟨_, .inr (.inl ⟨className, all_isWord (h.within className (filter_eq_some_iff.1 hclass).1), ?_,
      by simp only [append_assoc]; rfl⟩)⟩
    rw [ownCallMentions, if_neg hfunction, hclass]
  · split_ifs at hline
    obtain ⟨self, hself, rfl⟩ := map_eq_some_iff.1 hline
    rw [h.self self hself]
    exact ⟨_, .inr (.inr (by simp only [append_assoc]; rfl))⟩

lemma ownCall?_accounts (h : ctx.Neat) (hname : ∀ c ∈ name, isWord c = true) (args : List Text) :
    SaysAccounted (ownCallMentions ctx name) ((ownCall? ctx name args).map (·, ctx)) := by
  refine .map fun line hline => one ?_ h
  obtain ⟨r, rfl | ⟨className, hword, hmentions, rfl⟩ | rfl⟩ := ownCall?_cases h hline
  · exact accounted_function hname _
  · rw [hmentions]
    exact accounted_method (isDotted_of_isWord hword) hname ⟨rfl, rfl⟩ (mem_singleton.2 rfl)
  · exact accounted_call (w := "this") (by simp) _

lemma otherCall_accounts (h : ctx.Neat) (hreceiver : ∀ c ∈ receiver, isDotted c = true)
    (hname : ∀ c ∈ name, isWord c = true) (args : List Text) :
    Accounts [⟨.receiver name, receiver, ctx.className⟩]
      ⟨some [(otherCall ctx receiver name args).1], (otherCall ctx receiver name args).2⟩ := by
  have hline : ∀ r : Text, Accounted [⟨.receiver name, receiver, ctx.className⟩]
      ("await " ++ receiver ++ "." ++ (name ++ '(' :: r)) :=
    fun r => accounted_method hreceiver hname ⟨rfl, rfl⟩ (mem_singleton.2 rfl)
  simp only [append_assoc] at hline
  unfold otherCall
  simp only [append_assoc]
  generalize (ctx.project.bind (·.get? receiver)).filter (·.name = receiver) = known
  cases known with
  | none => exact one (hline _) (h.record _ _ _)
  | some c => exact one (hline _) ((h.importClass _).record _ _ _)

lemma genericCall_accounts (h : ctx.Neat) :
    Ensures (Accounts (calledMentions t ctx)) (genericCall t ctx) := by
  simp only [genericCall, calledMentions, bind_eq_bind, ← bind_assoc]
  cases (callStatement? t).bind splitCall? with
  | none => exact .decline (declined h)
  | some call =>
    have hchars := receiverAndName_chars call.1
    simp only [bind_some]
    split_ifs with hskip
    · exact .decline (declined h)
    · have hname := (hchars (by simpa using (not_or.1 (not_or.1 hskip).2).1)).2
      exact .ofOption (declined h) (ownCall?_accounts h hname _)
    · exact .decline (declined h)
    · obtain ⟨hreceiver, hname⟩ := hchars (by simpa using (not_or.1 (not_or.1 hskip).2).1)
      exact .accept (otherCall_accounts h hreceiver hname _)

/-- **A rule** accounts for what its lines name. -/
lemma rule_accounts : ∀ rule ∈ rules, ∀ t ctx, ctx.Neat →
    Ensures (Accounts (ruleMentions rule.name t ctx)) (rule.apply t ctx) := by
  simp only [rules, forall_mem_cons]
  exact ⟨fun _ _ => elementWait_accounts, fun _ _ => driverWait_accounts, fun _ _ => elementAction_accounts,
    fun _ _ => sleep_accounts, fun _ _ => assertion_accounts, fun _ _ => elementAssertion_accounts,
    fun _ _ => log_accounts, fun _ _ => navigate_accounts, fun _ _ => history_accounts,
    fun _ _ => newPageObject_accounts, fun _ _ => chainedPageCall_accounts, fun _ _ => throw_accounts,
    fun _ _ => returns_accounts, fun _ _ => literalDeclaration_accounts, fun _ _ => genericCall_accounts,
    by simp⟩

lemma applyRules_accounts
    (htried : ∀ rule ∈ tried, ∀ t ctx, ctx.Neat → Ensures (Accounts (ruleMentions rule.name t ctx)) (rule.apply t ctx))
    {found : Option (Rule × List Text)} (hneat : ctx.Neat) (h : applyRules t ctx tried = .ok (found, after))
    :
    Accounts (triedMentions t ctx tried) ⟨found.map (·.2), after⟩ := by
  induction tried generalizing ctx with
  | nil =>
    cases h
    exact declined hneat
  | cons rule rest ih =>
    rw [forall_mem_cons] at htried
    obtain ⟨verdict, hverdict, hcases⟩ := applyRules_cons_eq_ok h
    have haccounts := htried.1 t ctx hneat verdict hverdict
    rw [triedMentions, hverdict]
    rcases hcases with ⟨lines, rfl, rfl⟩ | ⟨hlines, h⟩
    · simpa using haccounts
    · have hrest := ih htried.2 haccounts.neat h
      dsimp only
      rw [hlines]
      exact ⟨fun line hline => (hrest.lines line hline).mono (subset_append_right _ _), hrest.neat⟩

/-- **A statement** accounts for what its lines name. -/
lemma statement_accounts {lines : List Text} (hneat : ctx.Neat)
    (h : statement line text ctx = .ok (lines, after)) :
    Accounts (statementMentions text ctx) ⟨some lines, after⟩ := by
  have hleft : ∀ {ms : List Mention} {t : Text} {ctx : Context}, ctx.Neat →
      leftOver line t ctx = (lines, after) → Accounts ms ⟨some lines, after⟩ := by
    intro ms t ctx hneat hleft
    rw [leftOver] at hleft
    split_ifs at hleft
    · cases hleft
      exact one (accounted_of_start rfl rfl rfl fun _ => rfl) (hneat.diagnose _ _ _)
    · cases hleft
      exact ⟨by simp, hneat.diagnose _ _ _⟩
  simp only [statement] at h
  split_ifs at h with hsingle
  · obtain ⟨⟨found, tried⟩, hrules, h⟩ := exists_of_bind_eq_ok h
    have haccounts := applyRules_accounts rule_accounts hneat hrules
    cases found with
    | some found =>
      cases h
      rw [statementMentions, if_pos hsingle]
      exact haccounts
    | none => exact hleft haccounts.neat (Except.ok.inj h)
  · exact hleft hneat (Except.ok.inj h)

/-! ### The rule that accepts -/

def acceptingRule? (text : Text) (ctx : Context) : Option Rule :=
  if isSingle (trim text) then (applyRules (trim text) ctx rules).toOption.bind fun found => found.1.map (·.1)
  else none

lemma acceptingRule?_of_error {f : Fault} (h : statement line text ctx = .error f) :
    acceptingRule? text ctx = none := by
  simp only [statement] at h
  rw [acceptingRule?]
  split_ifs at h ⊢
  cases hrules : applyRules (trim text) ctx rules with
  | error fault => rfl
  | ok found =>
    rw [hrules] at h
    obtain ⟨_ | _, _⟩ := found <;> cases h

lemma exists_neat_of_applyRules (hneat : ctx.Neat) {rule : Rule} {lines : List Text}
    (h : applyRules t ctx rules = .ok (some (rule, lines), after)) :
    rule ∈ rules ∧ ∃ before : Context, before.Neat ∧ before.standing = ctx.standing ∧
      rule.apply t before = .ok ⟨some lines, after⟩ := by
  obtain ⟨hmem, before, ⟨hbefore, hsame⟩, happly⟩ := exists_accepting
    (P := fun c => c.Neat ∧ c.standing = ctx.standing) (fun rule hrule c hc v hv _ =>
      ⟨(rule_accounts rule hrule t c hc.1 v hv).neat, (rule_keeps rule hrule t c v hv).trans hc.2⟩) ⟨hneat, rfl⟩ h
  exact ⟨hmem, before, hbefore, hsame, happly⟩

/-- A statement is accepted by a rule, or it is left over. -/
lemma statement_eq_ok {lines : List Text} (hneat : ctx.Neat)
    (h : statement line text ctx = .ok (lines, after)) :
    (∃ rule ∈ rules, acceptingRule? text ctx = some rule ∧ ∃ before : Context, before.Neat ∧
      before.standing = ctx.standing ∧ rule.apply (trim text) before = .ok ⟨some lines, after⟩) ∨
    (acceptingRule? text ctx = none ∧ ∃ tried, leftOver line (trim text) tried = (lines, after)) := by
  simp only [statement] at h
  rw [acceptingRule?]
  split_ifs at h ⊢ with hsingle
  · obtain ⟨⟨found, tried⟩, hrules, h⟩ := exists_of_bind_eq_ok h
    rw [hrules]
    cases found with
    | some found =>
      cases h
      obtain ⟨hmem, hbefore⟩ := exists_neat_of_applyRules hneat hrules
      exact .inl ⟨found.1, hmem, rfl, hbefore⟩
    | none => exact .inr ⟨rfl, tried, Except.ok.inj h⟩
  · exact .inr ⟨rfl, ctx, Except.ok.inj h⟩

end Rules

end Restage.Conversion
