import Restage.Proofs.Text.Readers
import Restage.Proofs.Text.Scanning

/-!
# Conditions and operator precedence

The value of a condition, from its text.  The text is read into tokens (`tokens`), the tokens into a
tree (`parse`), and the tree has a value for every valuation of its names (`Tree.value`).

The parser goes over the tokens once.  It keeps on a stack what still waits for an operand on the
right: negations, connectives with the operand on their left, and opening parentheses.  A connective
that comes next first takes from the stack all that binds at least as tightly as it does (`reduce`),
so that `!` binds tighter than `===`, that tighter than `&&` and that tighter than `||`, and
connectives of one kind group to the left.
-/

namespace Restage.TypeScript

open Text List

/-! ## Tokens -/

/-- What stands between two conditions. -/
inductive Connective
  | either
  | both
  | same
  deriving DecidableEq, Repr

/-- How tightly a connective binds. -/
def Connective.precedence : Connective → Nat
  | either => 0
  | both => 1
  | same => 2

/-- The parts of a condition. -/
inductive Token
  | name (name : Text)
  | literal (literal : Text)
  | not
  | join (connective : Connective)
  | opening
  | closing
  deriving DecidableEq, Repr

/-- The characters of identifiers. -/
def isIdentifier (c : Char) : Bool := isWord c || c == '$'

/-- The tokens with a fixed text. -/
def symbols : List (Text × Token) :=
  [("===", .join .same), ("&&", .join .both), ("||", .join .either), ("!", .not), ("(", .opening),
   (")", .closing)]

/-- Reads a token with a fixed text. -/
def symbol? (t : Text) : Option (Token × Text) :=
  symbols.findSome? fun (symbol, token) => (literal? symbol t).map (token, ·)

/-- Reads a token. -/
def token? (t : Text) : Option (Token × Text) :=
  ((run? isIdentifier t).map fun (name, r) => (.name name, r)).or
    (((string? t).map fun (literal, r) => (.literal literal, r)).or (symbol? t))

/-- The tokens of a text.  Between them there are only blanks. -/
def tokens (t : Text) : Option (List Token) :=
  (scan token? t).foldr
    (Sum.elim (fun c rest => if isBlank c then rest else none) fun token rest => rest.map (token :: ·))
    (some [])

/-! ## Trees and values -/

/-- A condition. -/
inductive Tree
  | name (name : Text)
  | literal (literal : Text)
  | not (operand : Tree)
  | join (connective : Connective) (left right : Tree)
  deriving DecidableEq, Repr

/-- What a name can stand for. -/
inductive Value
  | text (text : Text)
  | truth (truth : Bool)
  deriving DecidableEq, Repr

/-- Whether a value counts as true. -/
def Value.isTrue : Value → Bool
  | .text t => !t.isEmpty
  | .truth b => b

/-- What names and literals stand for. -/
structure Valuation where
  name : Text → Value
  literal : Text → Text

/-- The value of a condition.  The connectives `&&` and `||` give one of their operands. -/
def Tree.value (v : Valuation) : Tree → Value
  | .name n => v.name n
  | .literal l => .text (v.literal l)
  | .not t => .truth (!(t.value v).isTrue)
  | .join .same l r => .truth (decide (l.value v = r.value v))
  | .join .both l r => if (l.value v).isTrue then r.value v else l.value v
  | .join .either l r => if (l.value v).isTrue then l.value v else r.value v

/-! ## The parser -/

/-- What waits for an operand on the right. -/
inductive Frame
  | not
  | join (connective : Connective) (left : Tree)
  | opening
  deriving DecidableEq, Repr

/-- The parser waits for an operand, or it has one. -/
inductive State
  | expecting (stack : List Frame)
  | holding (operand : Tree) (stack : List Frame)
  deriving DecidableEq, Repr

/-- Gives an operand to all on the stack that binds at least as tightly as the precedence says. -/
def reduce (precedence : Nat) : Tree → List Frame → Tree × List Frame
  | t, .not :: stack => reduce precedence (.not t) stack
  | t, .join c left :: stack =>
    if precedence ≤ c.precedence then reduce precedence (.join c left t) stack
    else (t, .join c left :: stack)
  | t, stack => (t, stack)

/-- A step of the parser. -/
def step : State → Token → Option State
  | .expecting stack, .name n => some (.holding (.name n) stack)
  | .expecting stack, .literal l => some (.holding (.literal l) stack)
  | .expecting stack, .not => some (.expecting (.not :: stack))
  | .expecting stack, .opening => some (.expecting (.opening :: stack))
  | .holding t stack, .join c =>
    let (left, below) := reduce c.precedence t stack
    some (.expecting (.join c left :: below))
  | .holding t stack, .closing =>
    match reduce 0 t stack with
    | (group, .opening :: below) => some (.holding group below)
    | _ => none
  | _, _ => none

/-- The parser over some tokens. -/
def run (s : State) (ts : List Token) : Option State := ts.foldlM step s

/-- The condition that the parser has at the end. -/
def State.result? : State → Option Tree
  | .expecting _ => none
  | .holding t stack =>
    match reduce 0 t stack with
    | (whole, []) => some whole
    | _ => none

/-- The condition that some tokens stand for. -/
def parse (ts : List Token) : Option Tree := (run (.expecting []) ts).bind State.result?

/-- The value of a condition, from its text. -/
def evaluate (v : Valuation) (t : Text) : Option Value :=
  ((tokens t).bind parse).map (Tree.value v)

example : (tokens "!a === b && (c || d)").bind parse =
    some (.join .both (.join .same (.not (.name "a".toList)) (.name "b".toList))
      (.join .either (.name "c".toList) (.name "d".toList))) := by decide +kernel

/-! ## Reading tokens -/

variable {x : Token} {c : Connective} {stack : List Frame} {p : Nat}

section Tokens

variable {rest : Text}

lemma tokens_append_of_token {a : Text} (ha : a ≠ []) (h : token? (a ++ rest) = some (x, rest)) :
    tokens (a ++ rest) = (tokens rest).map (x :: ·) := by
  rw [tokens, scan_append_of_some ha h]
  rfl

lemma isIdentifier_eq_false_of_isBlank {c : Char} (h : isBlank c = true) : isIdentifier c = false := by
  rw [isIdentifier, Bool.or_eq_false_iff]
  constructor
  · rw [Bool.eq_false_iff]
    intro hword
    rw [isBlank_eq_false_of_isWord hword] at h
    cases h
  · rw [beq_eq_false_iff_ne]
    rintro rfl
    cases h

lemma tokens_append_of_blank {gap : Text} (h : ∀ c ∈ gap, isBlank c = true) :
    tokens (gap ++ rest) = tokens rest := by
  induction gap with
  | nil => rfl
  | cons c gap ih =>
    have hc := h c mem_cons_self
    have hquote : c ≠ '"' := by
      rintro rfl
      cases hc
    have hsymbol : symbol? (c :: (gap ++ rest)) = none := by
      rw [symbol?, findSome?_eq_none_iff]
      have hheads : ∀ s ∈ symbols, ∃ d r, s.1 = d :: r ∧ isBlank d = false := by
        simp only [symbols, forall_mem_cons]
        exact ⟨⟨'=', _, rfl, rfl⟩, ⟨'&', _, rfl, rfl⟩, ⟨'|', _, rfl, rfl⟩, ⟨'!', _, rfl, rfl⟩,
          ⟨'(', _, rfl, rfl⟩, ⟨')', _, rfl, rfl⟩, forall_mem_nil _⟩
      rintro ⟨symbol, token⟩ hmem
      obtain ⟨d, r, hd, hblank⟩ := hheads _ hmem
      have hne : ¬(d == c) = true := by
        rw [beq_iff_eq]
        rintro rfl
        rw [hc] at hblank
        cases hblank
      dsimp only at hd ⊢
      rw [hd, literal?_cons_cons, if_neg hne]
      rfl
    have hnone : token? (c :: (gap ++ rest)) = none := by
      rw [token?, run?_cons_of_not (isIdentifier_eq_false_of_isBlank hc), string?_cons_of_ne hquote, hsymbol]
      rfl
    have hskip : tokens (c :: (gap ++ rest)) = if isBlank c then tokens (gap ++ rest) else none := by
      rw [tokens, scan_cons_of_none hnone]
      rfl
    rw [cons_append, hskip, if_pos hc]
    exact ih fun d hd => h d (mem_cons_of_mem c hd)

lemma tokens_append_of_name {name : Text} (hne : name ≠ []) (hall : ∀ c ∈ name, isIdentifier c = true)
    (hrest : ∀ c ∈ rest.head?, isIdentifier c = false) :
    tokens (name ++ rest) = (tokens rest).map (.name name :: ·) := by
  refine tokens_append_of_token hne ?_
  rw [token?, run?_append hne hall hrest]
  rfl

lemma tokens_append_of_string {literal : Text} (h : string? literal = some (literal, [])) :
    tokens (literal ++ rest) = (tokens rest).map (.literal literal :: ·) := by
  have hread := (string?_eq_some h).2 rest
  cases literal with
  | nil => cases h
  | cons c r =>
    have hquote : c = '"' := by
      by_contra hc
      rw [string?_cons_of_ne hc] at h
      cases h
    subst hquote
    refine tokens_append_of_token (cons_ne_nil _ _) ?_
    have hname : run? isIdentifier ('"' :: r ++ rest) = none := run?_cons_of_not (by decide) _
    rw [token?, hread]
    rfl

lemma tokens_append_of_symbol (symbol : Text) (token : Token) (h : (symbol, token) ∈ symbols) (rest : Text) :
    tokens (symbol ++ rest) = (tokens rest).map (token :: ·) := by
  simp only [symbols, mem_cons, not_mem_nil, or_false] at h
  rcases h with ⟨rfl, rfl⟩ | ⟨rfl, rfl⟩ | ⟨rfl, rfl⟩ | ⟨rfl, rfl⟩ | ⟨rfl, rfl⟩ | ⟨rfl, rfl⟩ <;>
    exact tokens_append_of_token (by decide) rfl

end Tokens

/-! ## Steps of the parser -/

lemma run_cons {s s' : State} (h : step s x = some s') (ts : List Token) : run s (x :: ts) = run s' ts := by
  rw [run, foldlM_cons, h]
  rfl

lemma step_join {t left : Tree} {below : List Frame} (h : reduce c.precedence t stack = (left, below)) :
    step (.holding t stack) (.join c) = some (.expecting (.join c left :: below)) := by
  rw [step, h]

lemma step_closing {t group : Tree} {below : List Frame} (h : reduce 0 t stack = (group, .opening :: below))
    :
    step (.holding t stack) .closing = some (.holding group below) := by
  rw [step, h]

/-! ## Reducing the stack -/

/-- Nothing on top of a stack binds as tightly as the precedence says. -/
def AtRest (precedence : Nat) : List Frame → Prop
  | .not :: _ => False
  | .join c _ :: _ => c.precedence < precedence
  | _ => True

lemma AtRest.mono {q : Nat} (h : AtRest p stack) (hle : p ≤ q) : AtRest q stack := by
  rcases stack with _ | ⟨_ | ⟨c, left⟩ | _, stack⟩
  · trivial
  · exact h
  · exact lt_of_lt_of_le h hle
  · trivial

lemma AtRest.reduce_eq (h : AtRest p stack) (t : Tree) : reduce p t stack = (t, stack) := by
  rcases stack with _ | ⟨_ | ⟨c, left⟩ | _, stack⟩
  · rfl
  · cases h
  · rw [reduce, if_neg (Nat.not_le_of_lt h)]
  · rfl

lemma reduce_join (h : p ≤ c.precedence) (left t : Tree) (stack : List Frame) :
    reduce p t (.join c left :: stack) = reduce p (.join c left t) stack := by
  rw [reduce, if_pos h]

/-- Negations are reduced whatever comes next. -/
lemma reduce_negations (p k : Nat) (t : Tree) (stack : List Frame) :
    reduce p t (List.replicate k .not ++ stack) = reduce p (Tree.not^[k] t) stack := by
  induction k generalizing t with
  | zero => rfl
  | succ k ih =>
    rw [replicate_succ, cons_append, reduce, ih, Function.iterate_succ_apply]

/-! ## Runs of the parser -/

/-- **The parser over a condition** behind some negations.  Whatever is below on the stack, as long
as it does not bind as tightly, and whatever comes next, the parser ends with an operand and a stack
that reduce like the given tree on the stack from before. -/
def Runs (precedence k : Nat) (ts : List Token) (tree : Tree) : Prop :=
  ∀ (stack : List Frame) (rest : List Token), AtRest precedence stack →
    ∃ t stack', run (.expecting (List.replicate k .not ++ stack)) (ts ++ rest) = run (.holding t stack') rest ∧
      ∀ p ≤ precedence, reduce p t stack' = reduce p tree stack

section Runs

variable {p k : Nat} {ts : List Token} {tree : Tree}

lemma Runs.of_le {q : Nat} (h : Runs q k ts tree) (hle : p ≤ q) : Runs p k ts tree := by
  intro stack rest hstack
  obtain ⟨t, stack', hrun, hreduce⟩ := h stack rest (hstack.mono hle)
  exact ⟨t, stack', hrun, fun p hp => hreduce p (le_trans hp hle)⟩

lemma runs_operand (h : ∀ stack, step (.expecting stack) x = some (.holding tree stack)) (p k : Nat) :
    Runs p k [x] (Tree.not^[k] tree) := by
  intro stack rest _
  exact ⟨tree, replicate k .not ++ stack, run_cons (h _) rest, fun p _ => reduce_negations p k _ stack⟩

lemma runs_same {y : Token} {left right : Tree}
    (hx : ∀ stack, step (.expecting stack) x = some (.holding left stack))
    (hy : ∀ stack, step (.expecting stack) y = some (.holding right stack)) (k : Nat) :
    Runs Connective.same.precedence k [x, .join .same, y] (.join .same (Tree.not^[k] left) right) := by
  intro stack rest hstack
  have hleft : reduce Connective.same.precedence left (replicate k .not ++ stack) =
      (Tree.not^[k] left, stack) := by
    rw [reduce_negations]
    exact hstack.reduce_eq _
  refine ⟨right, .join .same (Tree.not^[k] left) :: stack, ?_, fun p hp => reduce_join hp _ _ _⟩
  calc run (.expecting (replicate k .not ++ stack)) ([x, .join .same, y] ++ rest)
      = run (.holding left (replicate k .not ++ stack)) (.join .same :: y :: rest) := run_cons (hx _) _
    _ = run (.expecting (.join .same (Tree.not^[k] left) :: stack)) (y :: rest) := run_cons (step_join hleft) _
    _ = run (.holding right (.join .same (Tree.not^[k] left) :: stack)) rest := run_cons (hy _) _

lemma Runs.not (h : Runs p (k + 1) ts tree) : Runs p k (.not :: ts) tree := h

lemma Runs.group (h : Runs 0 0 ts tree) (p k : Nat) :
    Runs p k (.opening :: (ts ++ [.closing])) (Tree.not^[k] tree) := by
  intro stack rest _
  have hinner : AtRest 0 (.opening :: (replicate k .not ++ stack)) := trivial
  obtain ⟨t, stack', hrun, hreduce⟩ := h _ (.closing :: rest) hinner
  have hgroup := (hreduce 0 (le_refl 0)).trans (hinner.reduce_eq tree)
  refine ⟨tree, replicate k .not ++ stack, ?_, fun p _ => reduce_negations p k _ stack⟩
  calc run (.expecting (replicate k .not ++ stack)) (.opening :: (ts ++ [.closing]) ++ rest)
      = run (.expecting (.opening :: (replicate k .not ++ stack))) (ts ++ [.closing] ++ rest) :=
        run_cons rfl _
    _ = run (.holding t stack') (.closing :: rest) := by rw [append_assoc]; exact hrun
    _ = run (.holding tree (replicate k .not ++ stack)) rest := run_cons (step_closing hgroup) rest

lemma Runs.join {ls rs : List Token} {l r : Tree} (hl : Runs c.precedence k ls l)
    (hr : Runs (c.precedence + 1) 0 rs r) : Runs c.precedence k (ls ++ .join c :: rs) (.join c l r) := by
  intro stack rest hstack
  obtain ⟨t, below, hleft, hreduce⟩ := hl stack (.join c :: (rs ++ rest)) hstack
  have hjoin := step_join ((hreduce c.precedence (le_refl _)).trans (hstack.reduce_eq l))
  have hright : AtRest (c.precedence + 1) (.join c l :: stack) := Nat.lt_succ_self _
  obtain ⟨t', below', hrun, hreduce'⟩ := hr _ rest hright
  refine ⟨t', below', ?_, fun p hp => ?_⟩
  · calc run (.expecting (replicate k .not ++ stack)) (ls ++ .join c :: rs ++ rest)
        = run (.holding t below) (.join c :: (rs ++ rest)) := by rw [append_assoc]; exact hleft
      _ = run (.expecting (.join c l :: stack)) (rs ++ rest) := run_cons hjoin _
      _ = run (.holding t' below') rest := hrun
  · exact (hreduce' p (Nat.le_succ_of_le hp)).trans (reduce_join hp _ _ _)

lemma Runs.parse_eq (h : Runs p 0 ts tree) : parse ts = some tree := by
  have hrest : AtRest p [] := trivial
  obtain ⟨t, stack, hrun, hreduce⟩ := h [] [] hrest
  have hwhole : reduce 0 t stack = (tree, []) := hreduce 0 (Nat.zero_le p)
  rw [append_nil, append_nil] at hrun
  have hend : run (.expecting []) ts = some (.holding t stack) := hrun
  rw [parse, hend, Option.bind_some, State.result?, hwhole]

end Runs

end Restage.TypeScript
