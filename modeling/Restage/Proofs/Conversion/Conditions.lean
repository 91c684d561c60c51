import Restage.Proofs.Conversion.StringContents
import Restage.Proofs.TypeScript.Precedence

/-!
# Conditions with comparisons

A `Condition` is built from names, comparisons by `equals`, negations, parentheses and the two
connectives, with blanks where they may stand.  Its levels are those of the grammar, so that the
text of a condition is read back in one way only.

An expression exchanges the comparisons of a condition and nothing else
(`Condition.expression_text`).  None of the calls that the first three exchanges look for stands in
a condition (`Uncalled`), so that only the last one finds something, and that one can be followed
part by part.  For this the condition has to be `Quiet`: an argument has no parentheses, or the
comparison would not be found; a receiver that is a literal holds none of those calls; and one that
is a name ends in a word character.
-/

namespace Restage.Conversion

open Text Java TypeScript List Option

variable {argument boundary out separator b : Text} {c : Char} (g h : Gap)

/-! ## Conditions -/

/-- Blanks between the parts of a condition. -/
structure Gap where
  text : Text
  blank : ∀ c ∈ text, isBlank c = true

/-- A name. -/
structure Identifier where
  text : Text
  ne_nil : text ≠ []
  proper : ∀ c ∈ text, isIdentifier c = true

/-- The methods that the first three exchanges look for. -/
def exchangedCalls : List Text := reads.map (·.1) ++ (["getTitle", "getCurrentUrl", "findElement"] : List Text)

/-- None of these methods is called in a text. -/
def Uncalled (t : Text) : Prop :=
  ∀ p q, t = p ++ '(' :: q → ∀ name ∈ exchangedCalls, ¬('.' :: name <:+ p)

/-- What is compared by `equals`. -/
inductive Operand
  | name (name : Identifier)
  | literal (literal : Text) (proper : isString literal = true)

namespace Operand

def text : Operand → Text
  | name n => n.text
  | literal l _ => l

/-- A receiver that is found as such and that holds nothing else to exchange. -/
def IsQuietReceiver : Operand → Prop
  | name n => ∃ c ∈ n.text.getLast?, isWord c = true
  | literal l _ => Uncalled l

/-- An argument without parentheses. -/
def IsQuietArgument (x : Operand) : Prop := ∀ c ∈ x.text, isParenthesis c = false

end Operand

/-- The levels of the grammar of conditions. -/
inductive Level
  | unary
  | both
  | either

/-- A condition. -/
inductive Condition : Level → Type
  | name (n : Identifier) : Condition .unary
  | equals (receiver : Operand) (g : Gap) (argument : Operand) (h : Gap) : Condition .unary
  | not (g : Gap) (e : Condition .unary) : Condition .unary
  | group (g : Gap) (e : Condition .either) (h : Gap) : Condition .unary
  | unary (e : Condition .unary) : Condition .both
  | both (l : Condition .both) (g h : Gap) (r : Condition .unary) : Condition .both
  | conjunction (e : Condition .both) : Condition .either
  | either (l : Condition .either) (g h : Gap) (r : Condition .both) : Condition .either

namespace Condition

variable {level : Level}

/-- The text of a condition, given that of its comparisons by their operands. -/
def render (comparison : Text → Text → Text) : {level : Level} → Condition level → Text
  | _, .name n => n.text
  | _, .equals x g y h => comparison x.text (g.text ++ y.text ++ h.text)
  | _, .not g e => "!" ++ g.text ++ e.render comparison
  | _, .group g e h => "(" ++ g.text ++ (e.render comparison ++ (h.text ++ ")"))
  | _, .unary e => e.render comparison
  | _, .both l g h r => l.render comparison ++ (g.text ++ "&&" ++ h.text ++ r.render comparison)
  | _, .conjunction e => e.render comparison
  | _, .either l g h r => l.render comparison ++ (g.text ++ "||" ++ h.text ++ r.render comparison)

def text (e : Condition level) : Text := e.render equalsCall

/-- The text of a condition with its comparisons exchanged. -/
def output (e : Condition level) : Text := e.render fun x y => x ++ " === " ++ y

/-- All comparisons are found, and nothing else is. -/
def Quiet : {level : Level} → Condition level → Prop
  | _, .name _ => True
  | _, .equals x _ y _ => x.IsQuietReceiver ∧ y.IsQuietArgument
  | _, .not _ e => e.Quiet
  | _, .group _ e _ => e.Quiet
  | _, .unary e => e.Quiet
  | _, .both l _ _ r => l.Quiet ∧ r.Quiet
  | _, .conjunction e => e.Quiet
  | _, .either l _ _ r => l.Quiet ∧ r.Quiet

end Condition

/-! ## What stands between the parts -/

lemma isWord_of_isIdentifier_eq_false (h : isIdentifier c = false) : isWord c = false :=
  (Bool.or_eq_false_iff.1 h).1

/-- What follows does not belong to a name or a call. -/
def Ends (rest : Text) : Prop := ∀ c ∈ rest.head?, isIdentifier c = false ∧ c ≠ '.' ∧ c ≠ '('

/-- A text without anything of a name, a literal or a call. -/
def IsSeparator (a : Text) : Prop := ∀ c ∈ a, isIdentifier c = false ∧ c ≠ '"' ∧ c ≠ '.'

/-- A separator that ends what stands before it. -/
structure IsBoundary (a : Text) : Prop where
  isSeparator : IsSeparator a
  ne_nil : a ≠ []
  not_mem : '(' ∉ a

variable {a t : Text}

lemma isSeparator_of_any (h : a.any (fun c => isIdentifier c || c == '"' || c == '.') = false) :
    IsSeparator a := by
  intro c hc
  have hfalse := forall_of_any_eq_false h c hc
  simpa only [Bool.or_eq_false_iff, beq_eq_false_iff_ne, and_assoc] using hfalse

lemma IsSeparator.append (ha : IsSeparator a) (hb : IsSeparator b) : IsSeparator (a ++ b) := by
  intro c hc
  rcases mem_append.1 hc with hc | hc
  · exact ha c hc
  · exact hb c hc

lemma IsBoundary.ends_append (h : IsBoundary a) (rest : Text) : Ends (a ++ rest) := by
  obtain ⟨c, r, rfl⟩ := exists_cons_of_ne_nil h.ne_nil
  rintro d ⟨⟩
  obtain ⟨hidentifier, -, hdot⟩ := h.isSeparator c mem_cons_self
  refine ⟨hidentifier, hdot, ?_⟩
  rintro rfl
  exact h.not_mem mem_cons_self

namespace Gap

variable (g : Gap)

lemma ne {d : Char} (hd : isBlank d = false) : ∀ c ∈ g.text, c ≠ d := by
  rintro c hc rfl
  rw [g.blank c hc] at hd
  cases hd

lemma isSeparator : IsSeparator g.text := fun c hc =>
  ⟨isIdentifier_eq_false_of_isBlank (g.blank c hc), g.ne (by decide) c hc, g.ne (by decide) c hc⟩

lemma ends_append {rest : Text} (h : Ends rest) : Ends (g.text ++ rest) := by
  intro c hc
  cases hg : g.text with
  | nil =>
    rw [hg] at hc
    exact h c hc
  | cons d r =>
    rw [hg, cons_append, head?_cons, mem_some] at hc
    subst hc
    have hmem : d ∈ g.text := hg ▸ mem_cons_self
    obtain ⟨hidentifier, -, hdot⟩ := g.isSeparator d hmem
    exact ⟨hidentifier, hdot, g.ne (by decide) d hmem⟩

lemma boundary_append (h : IsBoundary a) : IsBoundary (g.text ++ a) where
  isSeparator := g.isSeparator.append h.isSeparator
  ne_nil := by simp [h.ne_nil]
  not_mem := by
    rw [mem_append, not_or]
    exact ⟨fun hmem => g.ne (by decide) _ hmem rfl, h.not_mem⟩

lemma append_boundary (h : IsBoundary a) : IsBoundary (a ++ g.text) where
  isSeparator := h.isSeparator.append g.isSeparator
  ne_nil := by simp [h.ne_nil]
  not_mem := by
    rw [mem_append, not_or]
    exact ⟨h.not_mem, fun hmem => g.ne (by decide) _ hmem rfl⟩

end Gap

lemma isBoundary_closing : IsBoundary ")" := ⟨isSeparator_of_any (by decide), by decide, by decide⟩

lemma isBoundary_both : IsBoundary (g.text ++ "&&" ++ h.text) :=
  h.append_boundary (g.boundary_append ⟨isSeparator_of_any (by decide), by decide, by decide⟩)

lemma isBoundary_either : IsBoundary (g.text ++ "||" ++ h.text) :=
  h.append_boundary (g.boundary_append ⟨isSeparator_of_any (by decide), by decide, by decide⟩)

/-! ## The first three exchanges -/

lemma isWordText_of_mem_exchangedCalls {name : Text} (h : name ∈ exchangedCalls) :
    isWordText name = true ∧ name ≠ "equals".toList := by
  have hall : ∀ name ∈ exchangedCalls, isWordText name = true ∧ name ≠ "equals".toList := by decide
  exact hall name h

lemma uncalled_of_not_mem (h : '(' ∉ t) : Uncalled t := by
  rintro p q rfl
  exact absurd (by simp) h

lemma Uncalled.separator_append (h : Uncalled t) (hseparator : IsSeparator separator) :
    Uncalled (separator ++ t) := by
  induction separator with
  | nil => exact h
  | cons c separator ih =>
    intro p q heq name hname hsuffix
    cases p with
    | nil => cases suffix_nil.1 hsuffix
    | cons d p =>
      obtain ⟨rfl, hrest⟩ := cons.inj heq
      rcases suffix_cons_iff.1 hsuffix with hwhole | hsuffix
      · exact (hseparator c mem_cons_self).2.2 (cons.inj hwhole).1.symm
      · exact ih (fun d hd => hseparator d (mem_cons_of_mem c hd)) p q hrest name hname hsuffix

lemma Uncalled.append (ha : Uncalled a) (hb : Uncalled b) (hends : Ends b) :
    Uncalled (a ++ b) := by
  intro p q heq name hname hsuffix
  rcases append_eq_append_iff.1 heq with ⟨r, rfl, hr⟩ | ⟨r, rfl, hr⟩
  · -- What is called would have to start in the first text, and to go on with the head of the second.
    rcases suffix_or_suffix_of_suffix hsuffix (suffix_append a r) with hinner | hinner
    · exact hb r q hr name hname hinner
    · rcases suffix_cons_iff.1 hinner with rfl | hinner
      · exact hb _ q hr name hname suffix_rfl
      · cases r with
        | nil => exact (hends '(' (congrArg head? hr)).2.2 rfl
        | cons d r =>
          have hd := (hends d (congrArg head? hr)).1
          have hword := all_isWord (isWordText_of_mem_exchangedCalls hname).1 d
            (hinner.subset mem_cons_self)
          rw [isWord_of_isIdentifier_eq_false hd] at hword
          cases hword
  · cases r with
    | nil => exact (hends '(' (congrArg head? hr).symm).2.2 rfl
    | cons d r =>
      obtain ⟨rfl, -⟩ := cons.inj hr
      exact ha p r rfl name hname hsuffix

lemma not_suffix_equals {name : Text} (h : name ∈ exchangedCalls) (receiver : Text) :
    ¬('.' :: name <:+ receiver ++ ".equals") := by
  intro hboth
  obtain ⟨hword, hne⟩ := isWordText_of_mem_exchangedCalls h
  have hmethod : ".equals".toList <:+ receiver ++ ".equals" := suffix_append _ _
  have hdot : ∀ {w : Text}, isWordText w = true → '.' ∉ w := fun hw hmem =>
    absurd (all_isWord hw '.' hmem) (by decide)
  rcases suffix_or_suffix_of_suffix hboth hmethod with hinner | hinner
  · rcases suffix_cons_iff.1 hinner with hsame | hinner
    · exact hne (cons.inj hsame).2
    · exact hdot (w := "equals") (by decide) (hinner.subset mem_cons_self)
  · rcases suffix_cons_iff.1 hinner with hsame | hinner
    · exact hne (cons.inj hsame).2.symm
    · exact hdot hword (hinner.subset mem_cons_self)

lemma uncalled_equalsCall {receiver : Text} (hreceiver : Uncalled receiver)
    (hargument : '(' ∉ argument) :
    Uncalled (equalsCall receiver argument) := by
  intro p q heq name hname hsuffix
  have hcall : receiver ++ ".equals" ++ '(' :: (argument ++ ")") = p ++ '(' :: q := by
    rw [← heq]
    simp [equalsCall]
  have hbehind : '(' ∉ argument ++ ")" := by
    rw [mem_append, not_or]
    exact ⟨hargument, by decide⟩
  rcases append_eq_append_iff.1 hcall with ⟨r, rfl, hr⟩ | ⟨r, hr, hr'⟩
  · cases r with
    | nil =>
      rw [append_nil] at hsuffix
      exact not_suffix_equals hname receiver hsuffix
    | cons d r =>
      obtain ⟨-, hr⟩ := cons.inj hr
      exact hbehind (hr ▸ by simp)
  · cases r with
    | nil =>
      rw [append_nil] at hr
      exact not_suffix_equals hname receiver (hr ▸ hsuffix)
    | cons d r =>
      obtain ⟨rfl, -⟩ := cons.inj hr'
      rcases append_eq_append_iff.1 hr with ⟨u, rfl, hu⟩ | ⟨u, rfl, hu⟩
      · exact absurd (hu ▸ by simp : '(' ∈ ".equals".toList) (by decide)
      · cases u with
        | nil =>
          have hfirst : some '(' = some '.' := congrArg head? hu
          exact absurd hfirst (by decide)
        | cons e u =>
          obtain ⟨rfl, -⟩ := cons.inj hu
          exact hreceiver p u rfl name hname hsuffix

lemma Uncalled.expression_eq (h : Uncalled t) (ctx : Context) :
    expression ctx t = exchangeAll (fun _ => convertEquals?) t := by
  have hcalled : ∀ {a name b : Text}, name ∈ exchangedCalls → t ≠ a ++ '.' :: (name ++ '(' :: b) := by
    intro a name b hname heq
    exact h (a ++ '.' :: name) b (by rw [heq]; simp) name hname (suffix_append a _)
  have hsearch : NoSearchRead t := by
    intro s r hs hr
    obtain ⟨p, q, _, _, ⟨a, b, rfl⟩, rfl, -⟩ := exists_stringTail?_of_literalSearch? hr
    obtain ⟨x, rfl⟩ := hs
    have hfind : "findElement".toList ∈ exchangedCalls := by decide
    refine absurd ?_ (hcalled (a := x ++ a) (b := b ++ '"' :: q) hfind)
    simp
  have hread : ¬ReadSite ctx t := by
    rintro ⟨before, name, read, after, rfl, -, ⟨target, action, args, rfl, -, -, haction, -⟩, -⟩
    refine hcalled (a := before ++ target) (b := args ++ ')' :: after) (mem_append_left _ haction) ?_
    simp
  have hquery : ∀ {name : Text}, name ∈ exchangedCalls → ¬QuerySite ('.' :: (name ++ ['(', ')'])) t := by
    rintro name hname ⟨reference, -, a, b, rfl⟩
    refine hcalled (a := a ++ reference) (b := ')' :: b) hname ?_
    simp
  have htitle : exchangeAll (fun _ => convertQuery? ".getTitle()" ("await " ++ ctx.pageRef ++ ".title()")) t =
      t := exchangeAll_convertQuery?_eq_self _ (hquery (by decide : "getTitle".toList ∈ exchangedCalls))
  have haddress : exchangeAll (fun _ => convertQuery? ".getCurrentUrl()" (ctx.pageRef ++ ".url()")) t = t :=
    exchangeAll_convertQuery?_eq_self _ (hquery (by decide : "getCurrentUrl".toList ∈ exchangedCalls))
  unfold expression
  dsimp only
  rw [exchangeAll_convertRead?_eq_self hsearch hread, htitle, haddress]

/-! ## The exchange of comparisons -/

lemma convertEquals?_cons (hword : isWord c = false) (hquote : c ≠ '"') (r : Text) :
    convertEquals? (c :: r) = none := by
  rw [convertEquals?, word?, run?_cons_of_not hword, string?_cons_of_ne hquote]
  rfl

lemma exchange_separator (h : IsSeparator a) (b : Text) :
    exchangeAll (fun _ => convertEquals?) (a ++ b) = a ++ exchangeAll (fun _ => convertEquals?) b := by
  refine exchangeAll_append_of_none b fun c s hs => ?_
  have hc := h c (hs.subset mem_cons_self)
  exact convertEquals?_cons (isWord_of_isIdentifier_eq_false hc.1) hc.2.1 _

lemma convertEquals?_word_of_ne {word r : Text} (hword : isWordText word = true)
    (hr : ∀ c ∈ r.head?, isWord c = false ∧ c ≠ '.' ∧ c ≠ '(') : convertEquals? (word ++ r) = none := by
  have hread := word?_append hword fun c hc => (hr c hc).1
  have hfixed : ∀ {d : Char} (w : Text), d = '.' ∨ d = '(' → literal? (d :: w) r = none := by
    intro d w hd
    cases r with
    | nil => rfl
    | cons c r =>
      obtain ⟨-, hdot, hparenthesis⟩ := hr c rfl
      refine if_neg ?_
      rw [beq_iff_eq]
      rcases hd with rfl | rfl
      · exact hdot.symm
      · exact hparenthesis.symm
  have hcall : literal? "()" r = none := hfixed _ (.inr rfl)
  have hmethod : literal? ".equals(" r = none := hfixed _ (.inl rfl)
  rw [convertEquals?, hread, map_some, some_or, bind_eq_bind, bind_some]
  dsimp only
  rw [hcall, getD_none, hmethod]
  rfl

lemma convertEquals?_identifier {s u : Text} (hs : ∀ c ∈ s, isIdentifier c = true) (hne : s ≠ [])
    (h : (∃ c ∈ s, isWord c = false) ∨ Ends u) : convertEquals? (s ++ u) = none := by
  have hsplit : s = s.takeWhile isWord ++ s.dropWhile isWord := takeWhile_append_dropWhile.symm
  have hstop : ∀ c ∈ (s.dropWhile isWord ++ u).head?, isWord c = false ∧ c ≠ '.' ∧ c ≠ '(' := by
    intro c hc
    cases hd : s.dropWhile isWord with
    | nil =>
      rw [hd] at hc
      rcases h with ⟨d, hmem, hword⟩ | hends
      · rw [dropWhile_eq_nil_iff.1 hd d hmem] at hword
        cases hword
      · exact ⟨isWord_of_isIdentifier_eq_false (hends c hc).1, (hends c hc).2⟩
    | cons d r =>
      rw [hd, cons_append, head?_cons, mem_some] at hc
      subst hc
      have hword := head?_dropWhile_not isWord s
      rw [hd] at hword
      have hidentifier := hs d ((dropWhile_suffix isWord).subset (hd ▸ mem_cons_self))
      rw [isIdentifier, Bool.or_eq_true, beq_iff_eq] at hidentifier
      obtain rfl := hidentifier.resolve_left (by simpa using hword)
      exact ⟨by simpa using hword, by decide, by decide⟩
  rw [hsplit, append_assoc]
  cases htake : s.takeWhile isWord with
  | nil =>
    obtain ⟨c, r, rfl⟩ := exists_cons_of_ne_nil hne
    rw [htake, nil_append] at hsplit
    rw [← hsplit] at hstop ⊢
    refine convertEquals?_cons (hstop c rfl).1 ?_ _
    rintro rfl
    exact absurd (hs '"' mem_cons_self) (by decide)
  | cons c w =>
    rw [← htake]
    refine convertEquals?_word_of_ne ?_ hstop
    have hall : (s.takeWhile isWord).all isWord = true :=
      List.all_eq_true.2 fun d hd => mem_takeWhile_imp hd
    rw [isWordText, hall, htake]
    rfl

/-- The comparison of a name is exchanged; the exchange starts at the last word of the name. -/
lemma exchange_name_comparison {name : Text} (hname : ∀ c ∈ name, isIdentifier c = true)
    (hlast : ∃ c ∈ name.getLast?, isWord c = true)
    (hargument : ∀ c ∈ argument, isParenthesis c = false) (rest : Text) :
    exchangeAll (fun _ => convertEquals?) (equalsCall name argument ++ rest) =
      name ++ " === " ++ argument ++ exchangeAll (fun _ => convertEquals?) rest := by
  induction name with
  | nil =>
    obtain ⟨c, hc, -⟩ := hlast
    cases hc
  | cons c name ih =>
    by_cases hword : isWordText (c :: name) = true
    · exact exchangeAll_append_of_some (by simp [equalsCall]) (convertEquals?_word hword hargument rest)
    · have hother : ∃ d ∈ c :: name, isWord d = false := by
        by_contra hnone
        push Not at hnone
        refine hword ?_
        rw [isWordText, isEmpty_cons, Bool.not_false, Bool.true_and, List.all_eq_true]
        exact fun d hd => by simpa using hnone d hd
      have hcut : equalsCall (c :: name) argument ++ rest =
          c :: name ++ (".equals(" ++ argument ++ ")" ++ rest) := by simp [equalsCall]
      have hnone : convertEquals? (c :: (equalsCall name argument ++ rest)) = none :=
        (congrArg convertEquals? hcut).trans
          (convertEquals?_identifier hname (cons_ne_nil c name) (.inl hother))
      have hlast' : ∃ d ∈ name.getLast?, isWord d = true := by
        cases name with
        | nil =>
          obtain ⟨d, hd, hdWord⟩ := hlast
          obtain ⟨e, he, hfalse⟩ := hother
          rw [getLast?_singleton, mem_some] at hd
          rw [mem_singleton.1 he, hd, hdWord] at hfalse
          cases hfalse
        | cons e name => rwa [getLast?_cons_cons] at hlast
      have hrest := ih (fun d hd => hname d (mem_cons_of_mem c hd)) hlast'
      have hcons : equalsCall (c :: name) argument ++ rest = c :: (equalsCall name argument ++ rest) := rfl
      rw [hcons, exchangeAll_cons_of_none hnone, hrest]
      rfl

/-- The last exchange makes the one text the other, if something follows that ends it. -/
def Exchanged (t out : Text) : Prop :=
  ∀ rest, Ends rest → exchangeAll (fun _ => convertEquals?) (t ++ rest) =
    out ++ exchangeAll (fun _ => convertEquals?) rest

lemma Exchanged.separator_append (h : Exchanged t out) (hseparator : IsSeparator separator) : Exchanged (separator ++ t) (separator ++ out) := by
  intro rest hrest
  rw [append_assoc, exchange_separator hseparator, h rest hrest, append_assoc]

lemma Exchanged.append_boundary (h : Exchanged t out) (hboundary : IsBoundary boundary) : Exchanged (t ++ boundary) (out ++ boundary) := by
  intro rest _
  rw [append_assoc, h _ (hboundary.ends_append rest), exchange_separator hboundary.isSeparator,
    append_assoc]

lemma Exchanged.append {l r out' : Text} (hl : Exchanged l out) (hr : Exchanged r out')
    (hboundary : IsBoundary boundary) : Exchanged (l ++ (boundary ++ r)) (out ++ (boundary ++ out')) := by
  intro rest hrest
  rw [append_assoc, append_assoc, hl _ (hboundary.ends_append _),
    exchange_separator hboundary.isSeparator, hr rest hrest, append_assoc, append_assoc]

lemma Identifier.not_mem (n : Identifier) (h : isIdentifier c = false) : c ∉ n.text := by
  intro hc
  rw [n.proper c hc] at h
  cases h

namespace Condition

variable {level : Level}

lemma isParenthesis_argument {y : Operand} (hy : y.IsQuietArgument) (g h : Gap) :
    ∀ c ∈ g.text ++ y.text ++ h.text, isParenthesis c = false := by
  have hgap : ∀ g : Gap, ∀ c ∈ g.text, isParenthesis c = false := by
    intro g c hc
    rw [isParenthesis, Bool.or_eq_false_iff, beq_eq_false_iff_ne, beq_eq_false_iff_ne]
    exact ⟨g.ne (by decide) c hc, g.ne (by decide) c hc⟩
  intro c hc
  rcases mem_append.1 hc with hc | hc
  · rcases mem_append.1 hc with hc | hc
    · exact hgap g c hc
    · exact hy c hc
  · exact hgap h c hc

lemma uncalled_text (e : Condition level) (hquiet : e.Quiet) : Uncalled e.text := by
  induction e with
  | name n => exact uncalled_of_not_mem (n.not_mem (by decide))
  | equals x g y h =>
    obtain ⟨hx, hy⟩ := hquiet
    refine uncalled_equalsCall ?_ fun hmem => absurd (isParenthesis_argument hy g h '(' hmem) (by decide)
    cases x with
    | name n => exact uncalled_of_not_mem (n.not_mem (by decide))
    | literal l _ => exact hx
  | not g e ih => exact (ih hquiet).separator_append (.append (isSeparator_of_any (by decide)) g.isSeparator)
  | group g e h ih =>
    have hclose := h.boundary_append isBoundary_closing
    have hends := hclose.ends_append []
    rw [append_nil] at hends
    exact ((ih hquiet).append (uncalled_of_not_mem hclose.not_mem) hends).separator_append
      (.append (isSeparator_of_any (by decide)) g.isSeparator)
  | unary e ih => exact ih hquiet
  | both l g h r ihl ihr =>
    have hclose := isBoundary_both g h
    exact (ihl hquiet.1).append ((ihr hquiet.2).separator_append hclose.isSeparator) (hclose.ends_append _)
  | conjunction e ih => exact ih hquiet
  | either l g h r ihl ihr =>
    have hclose := isBoundary_either g h
    exact (ihl hquiet.1).append ((ihr hquiet.2).separator_append hclose.isSeparator) (hclose.ends_append _)

lemma exchanged_text (e : Condition level) (hquiet : e.Quiet) : Exchanged e.text e.output := by
  induction e with
  | name n =>
    intro rest hrest
    refine exchangeAll_append_of_none rest fun c s hs => ?_
    exact convertEquals?_identifier (fun d hd => n.proper d (hs.subset hd)) (cons_ne_nil c s) (.inr hrest)
  | equals x g y h =>
    obtain ⟨hx, hy⟩ := hquiet
    intro rest _
    have hargument := isParenthesis_argument hy g h
    cases x with
    | name n => exact exchange_name_comparison n.proper hx hargument rest
    | literal l hl =>
      exact exchangeAll_append_of_some (by simp [text, render, equalsCall])
        (convertEquals?_string hl hargument rest)
  | not g e ih => exact (ih hquiet).separator_append (.append (isSeparator_of_any (by decide)) g.isSeparator)
  | group g e h ih =>
    exact ((ih hquiet).append_boundary (h.boundary_append isBoundary_closing)).separator_append
      (.append (isSeparator_of_any (by decide)) g.isSeparator)
  | unary e ih => exact ih hquiet
  | both l g h r ihl ihr => exact (ihl hquiet.1).append (ihr hquiet.2) (isBoundary_both g h)
  | conjunction e ih => exact ih hquiet
  | either l g h r ihl ihr => exact (ihl hquiet.1).append (ihr hquiet.2) (isBoundary_either g h)

/-- **The comparisons of a condition are exchanged**, and all else stays. -/
lemma expression_text (ctx : Context) (e : Condition level) (hquiet : e.Quiet) :
    expression ctx e.text = e.output := by
  have hends : Ends [] := by rintro c ⟨⟩
  have hexchange := e.exchanged_text hquiet [] hends
  rw [append_nil] at hexchange
  rw [(e.uncalled_text hquiet).expression_eq ctx, hexchange]
  exact append_nil _

end Condition

end Restage.Conversion
