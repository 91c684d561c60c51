import Restage.Proofs.Conversion.Conditions

/-!
# The meaning of a condition

An exchanged comparison has no parentheses around it, and a negation binds tighter than `===`: a
negation directly before a comparison takes the receiver alone.  `Condition.reading` is the truth of
a condition so read, and `condition_meaning` says that this is what the output evaluates to.  Where
no negation stands directly before a comparison (`Condition.Guarded`) it is the truth of the
condition.

The tokens of the output are those of the condition (`Condition.tokenized_output`), and the parser
takes them to the tree of the condition (`Condition.runs_tokens`).  That tree depends on the
negations in front of the condition, so the induction is over all numbers of them.
-/

namespace Restage.Conversion

open Text Java TypeScript List

variable {ts : List Token} {t boundary : Text}

/-! ## Truth -/

namespace Operand

def value (v : Valuation) : Operand → Value
  | name n => v.name n.text
  | literal l _ => .text (v.literal l)

/-- The operand stands for a text. -/
def IsText (v : Valuation) (x : Operand) : Prop := ∃ t, x.value v = .text t

end Operand

namespace Condition

def holds (v : Valuation) : {level : Level} → Condition level → Bool
  | _, .name n => (v.name n.text).isTrue
  | _, .equals x _ y _ => decide (x.value v = y.value v)
  | _, .not _ e => !e.holds v
  | _, .group _ e _ => e.holds v
  | _, .unary e => e.holds v
  | _, .both l _ _ r => l.holds v && r.holds v
  | _, .conjunction e => e.holds v
  | _, .either l _ _ r => l.holds v || r.holds v

/-- The names of a condition stand for truth values, the operands of its comparisons for texts. -/
def Typed (v : Valuation) : {level : Level} → Condition level → Prop
  | _, .name n => ∃ b, v.name n.text = .truth b
  | _, .equals x _ y _ => x.IsText v ∧ y.IsText v
  | _, .not _ e => e.Typed v
  | _, .group _ e _ => e.Typed v
  | _, .unary e => e.Typed v
  | _, .both l _ _ r => l.Typed v ∧ r.Typed v
  | _, .conjunction e => e.Typed v
  | _, .either l _ _ r => l.Typed v ∧ r.Typed v

/-- No negation stands directly before a comparison, given whether one stands before the
condition. -/
def Guarded : Bool → {level : Level} → Condition level → Prop
  | _, _, .name _ => True
  | negated, _, .equals _ _ _ _ => negated = false
  | _, _, .not _ e => e.Guarded true
  | _, _, .group _ e _ => e.Guarded false
  | negated, _, .unary e => e.Guarded negated
  | negated, _, .both l _ _ r => l.Guarded negated ∧ r.Guarded false
  | negated, _, .conjunction e => e.Guarded negated
  | negated, _, .either l _ _ r => l.Guarded negated ∧ r.Guarded false

/-- The truth of a condition behind some negations, if those before a comparison go to its receiver.
A comparison of what they give, a truth value, with a text then fails. -/
def reading (v : Valuation) : Nat → {level : Level} → Condition level → Bool
  | negations, _, .name n => Bool.not^[negations] (v.name n.text).isTrue
  | negations, _, .equals x _ y _ => negations == 0 && decide (x.value v = y.value v)
  | negations, _, .not _ e => e.reading v (negations + 1)
  | negations, _, .group _ e _ => Bool.not^[negations] (e.reading v 0)
  | negations, _, .unary e => e.reading v negations
  | negations, _, .both l _ _ r => l.reading v negations && r.reading v 0
  | negations, _, .conjunction e => e.reading v negations
  | negations, _, .either l _ _ r => l.reading v negations || r.reading v 0

end Condition

/-! ## Reading the output -/

/-- How tightly the parts of a condition of some level bind. -/
def Level.precedence : Level → Nat
  | .unary => 2
  | .both => 1
  | .either => 0

namespace Operand

def token : Operand → Token
  | name n => .name n.text
  | literal l _ => .literal l

def tree : Operand → Tree
  | name n => .name n.text
  | literal l _ => .literal l

lemma tokens_text (x : Operand) {rest : Text} (hrest : ∀ c ∈ rest.head?, isIdentifier c = false) :
    tokens (x.text ++ rest) = (tokens rest).map (x.token :: ·) := by
  cases x with
  | name n => exact tokens_append_of_name n.ne_nil n.proper hrest
  | literal l hl => exact tokens_append_of_string (string?_of_isString hl)

lemma step_token (x : Operand) (stack : List Frame) :
    step (.expecting stack) x.token = some (.holding x.tree stack) := by
  cases x <;> rfl

lemma value_tree (v : Valuation) (x : Operand) : x.tree.value v = x.value v := by
  cases x <;> rfl

end Operand

/-- A text is read into tokens, if something follows that ends it. -/
def Tokenized (t : Text) (ts : List Token) : Prop :=
  ∀ rest us, Ends rest → tokens rest = some us → tokens (t ++ rest) = some (ts ++ us)

lemma Tokenized.symbol_append (h : Tokenized t ts) (symbol : Text) (token : Token)
    (hsymbol : (symbol, token) ∈ symbols) (g : Gap) : Tokenized (symbol ++ g.text ++ t) (token :: ts) := by
  intro rest us hends hrest
  rw [append_assoc, append_assoc, tokens_append_of_symbol symbol token hsymbol,
    tokens_append_of_blank g.blank, h rest us hends hrest]
  rfl

lemma Tokenized.append_boundary {token : Token} (h : Tokenized t ts)
    (hboundary : IsBoundary boundary)
    (htoken : ∀ rest us, tokens rest = some us → tokens (boundary ++ rest) = some (token :: us)) :
    Tokenized (t ++ boundary) (ts ++ [token]) := by
  intro rest us _ hrest
  rw [append_assoc, h _ _ (hboundary.ends_append rest) (htoken rest us hrest), append_assoc]
  rfl

lemma Tokenized.append {l r : Text} {ls rs : List Token} {token : Token} (hl : Tokenized l ls)
    (hr : Tokenized r rs) (hboundary : IsBoundary boundary)
    (htoken : ∀ rest us, tokens rest = some us → tokens (boundary ++ rest) = some (token :: us)) :
    Tokenized (l ++ (boundary ++ r)) (ls ++ token :: rs) := by
  intro rest us hends hrest
  have hright := htoken _ _ (hr rest us hends hrest)
  rw [append_assoc, append_assoc, hl _ _ (hboundary.ends_append _) hright, append_assoc]
  rfl

lemma tokens_connective (symbol : Text) (token : Token) (hsymbol : (symbol, token) ∈ symbols) (g h : Gap)
    (rest : Text) (us : List Token) (hrest : tokens rest = some us) :
    tokens (g.text ++ symbol ++ h.text ++ rest) = some (token :: us) := by
  rw [append_assoc, append_assoc, tokens_append_of_blank g.blank,
    tokens_append_of_symbol symbol token hsymbol, tokens_append_of_blank h.blank, hrest]
  rfl

namespace Condition

variable {level : Level} (v : Valuation) (e : Condition level) (k : Nat)

/-- The tokens of a condition with its comparisons exchanged. -/
def tokens : {level : Level} → Condition level → List Token
  | _, .name n => [.name n.text]
  | _, .equals x _ y _ => [x.token, .join .same, y.token]
  | _, .not _ e => .not :: e.tokens
  | _, .group _ e _ => .opening :: (e.tokens ++ [.closing])
  | _, .unary e => e.tokens
  | _, .both l _ _ r => l.tokens ++ .join .both :: r.tokens
  | _, .conjunction e => e.tokens
  | _, .either l _ _ r => l.tokens ++ .join .either :: r.tokens

/-- The tree that a condition with its comparisons exchanged is read as, behind some negations. -/
def tree : Nat → {level : Level} → Condition level → Tree
  | negations, _, .name n => Tree.not^[negations] (.name n.text)
  | negations, _, .equals x _ y _ => .join .same (Tree.not^[negations] x.tree) y.tree
  | negations, _, .not _ e => e.tree (negations + 1)
  | negations, _, .group _ e _ => Tree.not^[negations] (e.tree 0)
  | negations, _, .unary e => e.tree negations
  | negations, _, .both l _ _ r => .join .both (l.tree negations) (r.tree 0)
  | negations, _, .conjunction e => e.tree negations
  | negations, _, .either l _ _ r => .join .either (l.tree negations) (r.tree 0)

lemma tokenized_output : Tokenized e.output e.tokens := by
  induction e with
  | name n =>
    intro rest ts hends hrest
    rw [output, render, tokens_append_of_name n.ne_nil n.proper fun c hc => (hends c hc).1, hrest]
    rfl
  | equals x g y h =>
    intro rest ts hends hrest
    have htext : (equals x g y h).output ++ rest =
        x.text ++ (" " ++ ("===" ++ (" " ++ g.text ++ (y.text ++ (h.text ++ rest))))) := by
      simp [output, render]
    have hblank : ∀ c ∈ (" " : Text), isBlank c = true := all_eq_true.1 (by decide)
    have hbefore : ∀ c ∈ (" " : Text) ++ g.text, isBlank c = true := fun c hc =>
      (mem_append.1 hc).elim (hblank c) (g.blank c)
    rw [htext, x.tokens_text (by rintro c ⟨⟩; decide), tokens_append_of_blank hblank,
      tokens_append_of_symbol "===" (.join .same) (by decide), tokens_append_of_blank hbefore,
      y.tokens_text fun c hc => (h.ends_append hends c hc).1, tokens_append_of_blank h.blank, hrest]
    rfl
  | not g e ih => exact ih.symbol_append "!" .not (by decide) g
  | group g e h ih =>
    have hclose := h.boundary_append isBoundary_closing
    refine (ih.append_boundary hclose fun rest ts hrest => ?_).symbol_append "(" .opening (by decide) g
    rw [append_assoc, tokens_append_of_blank h.blank, tokens_append_of_symbol ")" .closing (by decide),
      hrest]
    rfl
  | unary e ih => exact ih
  | both l g h r ihl ihr =>
    exact ihl.append ihr (isBoundary_both g h) (tokens_connective "&&" (.join .both) (by decide) g h)
  | conjunction e ih => exact ih
  | either l g h r ihl ihr =>
    exact ihl.append ihr (isBoundary_either g h) (tokens_connective "||" (.join .either) (by decide) g h)

lemma runs_tokens : Runs level.precedence k e.tokens (e.tree k) := by
  induction e generalizing k with
  | name n => exact runs_operand (fun _ => rfl) _ k
  | equals x g y h => exact runs_same x.step_token y.step_token k
  | not g e ih => exact (ih (k + 1)).not
  | group g e h ih => exact (ih 0).group _ k
  | unary e ih => exact (ih k).of_le (by decide)
  | both l g h r ihl ihr => exact Runs.join (c := .both) (ihl k) (ihr 0)
  | conjunction e ih => exact (ih k).of_le (by decide)
  | either l g h r ihl ihr => exact Runs.join (c := .either) (ihl k) (ihr 0)

lemma evaluate_output (v : Valuation) : evaluate v e.output = some ((e.tree 0).value v) := by
  have hends : Ends [] := by rintro c ⟨⟩
  have htokens := e.tokenized_output [] [] hends rfl
  rw [append_nil, append_nil] at htokens
  rw [evaluate, htokens, Option.bind_some, (e.runs_tokens 0).parse_eq]
  rfl

/-! ## The meaning -/

lemma value_negations {v : Valuation} {t : Tree} {b : Bool} (h : t.value v = .truth b) (k : Nat) :
    (Tree.not^[k] t).value v = .truth (Bool.not^[k] b) := by
  induction k with
  | zero => exact h
  | succ k ih => rw [Function.iterate_succ_apply', Function.iterate_succ_apply', Tree.value, ih, Value.isTrue]

lemma value_tree {v : Valuation} (htyped : e.Typed v) (k : Nat) :
    (e.tree k).value v = .truth (e.reading v k) := by
  induction e generalizing k with
  | name n =>
    obtain ⟨b, hb⟩ := htyped
    have hname : (Tree.name n.text).value v = .truth b := hb
    rw [tree, value_negations hname, reading, hb, Value.isTrue]
  | equals x g y h =>
    obtain ⟨-, t, ht⟩ := htyped
    cases k with
    | zero =>
      rw [tree, Tree.value, Function.iterate_zero, id, x.value_tree, y.value_tree]
      rfl
    | succ k =>
      rw [tree, Tree.value, Function.iterate_succ_apply', y.value_tree, ht]
      rfl
  | not g e ih => exact ih htyped (k + 1)
  | group g e h ih => exact value_negations (ih htyped 0) k
  | unary e ih => exact ih htyped k
  | both l g h r ihl ihr =>
    rw [tree, Tree.value, ihl htyped.1, ihr htyped.2, reading]
    cases l.reading v k <;> rfl
  | conjunction e ih => exact ih htyped k
  | either l g h r ihl ihr =>
    rw [tree, Tree.value, ihl htyped.1, ihr htyped.2, reading]
    cases l.reading v k <;> rfl

/-- Without a negation directly before a comparison a condition is read as it is meant.  Behind
negations it is so for the conditions that a negation can stand before. -/
lemma reading_eq_holds (hlevel : level = .unary ∨ k = 0) (hguarded : e.Guarded (k != 0)) :
    e.reading v k = Bool.not^[k] (e.holds v) := by
  induction e generalizing k with
  | name n => rfl
  | equals x g y h =>
    have hfalse : (k != 0) = false := hguarded
    have hk : k = 0 := by simpa using hfalse
    subst hk
    rfl
  | not g e ih => exact ih (k + 1) (.inl rfl) hguarded
  | group g e h ih => exact congrArg Bool.not^[k] (ih 0 (.inr rfl) hguarded)
  | unary e ih => exact ih k (.inl rfl) hguarded
  | both l g h r ihl ihr =>
    obtain rfl := hlevel.resolve_left (by rintro ⟨⟩)
    exact congrArg₂ and (ihl 0 (.inr rfl) hguarded.1) (ihr 0 (.inr rfl) hguarded.2)
  | conjunction e ih =>
    obtain rfl := hlevel.resolve_left (by rintro ⟨⟩)
    exact ih 0 (.inr rfl) hguarded
  | either l g h r ihl ihr =>
    obtain rfl := hlevel.resolve_left (by rintro ⟨⟩)
    exact congrArg₂ or (ihl 0 (.inr rfl) hguarded.1) (ihr 0 (.inr rfl) hguarded.2)

end Condition

/-- **The meaning of a condition.**  The output of a condition evaluates to a truth value, which is
that of the condition if no negation stands directly before a comparison.  A negation that does
takes the receiver of the comparison alone, and the comparison fails. -/
theorem condition_meaning (ctx : Context) (v : Valuation) {level : Level} (e : Condition level)
    (hquiet : e.Quiet) (htyped : e.Typed v) :
    evaluate v (expression ctx e.text) = some (.truth (e.reading v 0)) ∧
      (e.Guarded false → evaluate v (expression ctx e.text) = some (.truth (e.holds v))) := by
  have hvalue : evaluate v (expression ctx e.text) = some (.truth (e.reading v 0)) := by
    rw [e.expression_text ctx hquiet, e.evaluate_output v, e.value_tree htyped 0]
  refine ⟨hvalue, fun hguarded => ?_⟩
  rw [hvalue, e.reading_eq_holds v 0 (.inr rfl) hguarded]
  rfl

/-- No blanks. -/
def Gap.empty : Gap := ⟨[], List.forall_mem_nil _⟩

/-- One blank. -/
def Gap.space : Gap := ⟨" ", List.all_eq_true.1 (by decide)⟩

/-- The condition `!(a$1.equals( "\"")) || ok && "f(x)".equals(b)`. -/
def guardedCondition : Condition .either :=
  let quote : Condition .unary :=
    .equals (.name ⟨"a$1", by decide, List.all_eq_true.1 (by decide)⟩) .space
      (.literal "\"\\\"\"" (by decide)) .empty
  let call : Condition .unary :=
    .equals (.literal "\"f(x)\"" (by decide)) .empty
      (.name ⟨"b", by decide, List.all_eq_true.1 (by decide)⟩) .empty
  .either (.conjunction (.unary (.not .empty (.group .empty (.conjunction (.unary quote)) .empty)))) .space .space
    (.both (.unary (.name ⟨"ok", by decide, List.all_eq_true.1 (by decide)⟩)) .space .space call)

/-- The condition `!a.equals(b)`. -/
def negatedComparison : Condition .unary :=
  .not .empty (.equals (.name ⟨"a", by decide, List.all_eq_true.1 (by decide)⟩) .empty
    (.name ⟨"b", by decide, List.all_eq_true.1 (by decide)⟩) .empty)

/-- The valuation by which `ok` is true and all else stands for its own text. -/
def ownTexts : Valuation := ⟨fun n => if n = "ok".toList then .truth true else .text n, fun l => l⟩

theorem condition_meaning_guarded :
    guardedCondition.text = "!(a$1.equals( \"\\\"\")) || ok && \"f(x)\".equals(b)".toList ∧
      guardedCondition.Quiet ∧ guardedCondition.Typed ownTexts ∧ guardedCondition.Guarded false ∧
      evaluate ownTexts (expression {} guardedCondition.text) = some (.truth true) := by
  have huncalled : Uncalled "\"f(x)\"" := by
    intro p q heq name _ hsuffix
    have hmem : '.' ∈ "\"f(x)\"".toList := by
      rw [heq]
      exact List.mem_append_left _ (hsuffix.subset List.mem_cons_self)
    exact absurd hmem (by decide)
  have hquiet : guardedCondition.Quiet :=
    And.intro (And.intro ⟨'1', rfl, by decide⟩ (forall_of_any_eq_false (by decide)))
      (And.intro trivial (And.intro huncalled (forall_of_any_eq_false (by decide))))
  have htyped : guardedCondition.Typed ownTexts :=
    And.intro (And.intro ⟨_, rfl⟩ ⟨_, rfl⟩) (And.intro ⟨_, rfl⟩ (And.intro ⟨_, rfl⟩ ⟨_, rfl⟩))
  have hguarded : guardedCondition.Guarded false := And.intro rfl (And.intro trivial rfl)
  exact ⟨by decide, hquiet, htyped, hguarded,
    (condition_meaning {} ownTexts guardedCondition hquiet htyped).2 hguarded⟩

/-- The negation of a comparison without parentheses fails where the texts differ. -/
theorem negated_comparison_misread :
    negatedComparison.text = "!a.equals(b)".toList ∧ expression {} "!a.equals(b)" = "!a === b".toList ∧
      negatedComparison.Quiet ∧ negatedComparison.Typed ownTexts ∧ negatedComparison.holds ownTexts = true ∧
      evaluate ownTexts (expression {} "!a.equals(b)") = some (.truth false) := by
  have hquiet : negatedComparison.Quiet :=
    And.intro ⟨'a', rfl, by decide⟩ (forall_of_any_eq_false (by decide))
  exact ⟨by decide, by decide +kernel, hquiet, And.intro ⟨_, rfl⟩ ⟨_, rfl⟩, by decide, by decide +kernel⟩

end Restage.Conversion
