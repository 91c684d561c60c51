import Mathlib.Algebra.Order.Ring.Int
import Mathlib.Data.List.TakeWhile
import Restage.TypeScript.Braces
import Restage.TypeScript.Sheet

/-!
# Counting braces over several texts

`Braces.ofText` cuts a text into lines and counts the braces of each, outside literals and comments.
A rendered sheet is a concatenation, so the count of the whole has to be told from its parts.  The
obstacle is the block comment, which hides every line up to its end: what a part contributes depends
on whether it is read inside one.

`Tally` is the counter as a machine with that one bit of state.  Reading a text ends where reading
its parts one after the other ends (`Tally.text_append`), indentation makes no difference to it
(`Tally.text_indented`), and so the tally of a rendered sheet is the tally of its lines
(`Tally.text_render`).
-/

namespace Restage.TypeScript

open Text List

/-- By how much the opening braces exceed the closing ones. -/
def Braces.balance (b : Braces) : Int := (b.opens : Int) - b.closes

/-- Where the counter stands: whether inside a block comment, and the balance so far. -/
structure Tally where
  inBlock : Bool := false
  balance : Int := 0
  deriving DecidableEq, Repr

namespace Tally

/-- The counter after one more line. -/
def line (s : Tally) (l : Text) : Tally :=
  if s.inBlock || startsWith "/*" (trimLeft l) then { s with inBlock := !occursIn "*/" l }
  else { s with balance := s.balance + (Braces.ofLine l).balance }

/-- The counter after one more text. -/
def text (s : Tally) (t : Text) : Tally := (lines t).foldl line s

/-- The counter after some more texts. -/
def texts (s : Tally) (ts : List Text) : Tally := ts.foldl text s

variable (s : Tally) (k : Nat) (n : Int) (l acc t r : Text) (ts : List Text)

@[simp] lemma texts_nil : s.texts [] = s := rfl

@[simp] lemma texts_cons : s.texts (t :: ts) = (s.text t).texts ts := rfl

lemma texts_append (us : List Text) : s.texts (ts ++ us) = (s.texts ts).texts us :=
  foldl_append ..

/-! ## The machine and the count -/

lemma balance_foldl_line (ls : List Text) (s : Tally) :
    (ls.foldl line s).balance = s.balance + (Braces.ofLines s.inBlock ls).balance := by
  induction ls generalizing s with
  | nil => simp [Braces.ofLines, Braces.balance]
  | cons l ls ih =>
    rw [foldl_cons, ih, line, Braces.ofLines]
    by_cases h : s.inBlock || startsWith "/*" (trimLeft l)
    · rw [if_pos h, if_pos h]
    · have hblock : s.inBlock = false := by
        rw [Bool.or_eq_true, not_or] at h
        exact Bool.not_eq_true _ ▸ h.1
      rw [if_neg h, if_neg h, hblock]
      simp only [Braces.add, Braces.balance]
      omega

lemma balance_ofText : (Braces.ofText t).balance = (({} : Tally).text t).balance := by
  rw [text, balance_foldl_line, Braces.ofText, Int.zero_add]

/-- The counter with `n` added to its balance. -/
def plus (s : Tally) (n : Int) : Tally := { s with balance := s.balance + n }

lemma line_plus : (s.plus n).line l = (s.line l).plus n := by
  rw [line, line, plus, plus]
  split_ifs
  · rfl
  · simp only [Tally.mk.injEq, true_and]
    omega

lemma text_plus : (s.plus n).text t = (s.text t).plus n := by
  rw [text, text]
  induction lines t generalizing s with
  | nil => rfl
  | cons l ls ih => rw [foldl_cons, foldl_cons, line_plus, ih]

lemma texts_plus : (s.plus n).texts ts = (s.texts ts).plus n := by
  induction ts generalizing s with
  | nil => rfl
  | cons t ts ih => rw [texts_cons, texts_cons, text_plus, ih]

/-! ## Indentation -/

lemma line_space : s.line (' ' :: l) = s.line l := by
  have htrim : trimLeft (' ' :: l) = trimLeft l := rfl
  have hends : occursIn "*/" (' ' :: l) = occursIn "*/" l := rfl
  have hcount : Braces.ofLine (' ' :: l) = Braces.ofLine l := by
    simp [Braces.ofLine, mask, Quoting.shown, Quoting.step, isQuote, Braces.beforeComment, occurrences]
  rw [line, line, htrim, hends, hcount]

@[simp] lemma line_nil : s.line [] = s := by
  obtain ⟨b, n⟩ := s
  cases b
  · show ({ inBlock := false, balance := n + 0 } : Tally) = _
    rw [Int.add_zero]
  · rfl

lemma line_replicate_append : s.line (List.replicate k ' ' ++ l) = s.line l := by
  induction k with
  | zero => rfl
  | succ k ih => rw [replicate_succ, cons_append, line_space, ih]

/-! ## Lines -/

lemma linesFrom_newline : linesFrom acc ('\n' :: r) = acc.reverse :: linesFrom [] r := by
  simp [linesFrom, isLineEnd, lineEnds]

lemma linesFrom_crlf : linesFrom acc ('\r' :: '\n' :: r) = acc.reverse :: linesFrom [] r := rfl

lemma linesFrom_lineEnd {c : Char} {r : Text} (hc : isLineEnd c = true)
    (hr : ∀ u, c = '\r' → r = '\n' :: u → False) :
    linesFrom acc (c :: r) = acc.reverse :: linesFrom [] r := by
  rw [linesFrom.eq_3 acc c r hr, if_pos hc]

lemma linesFrom_other {c : Char} (hc : isLineEnd c = false) :
    linesFrom acc (c :: r) = linesFrom (c :: acc) r := by
  have hr : ∀ u, c = '\r' → r = '\n' :: u → False := by
    rintro u rfl -
    exact absurd hc (by decide)
  rw [linesFrom.eq_3 acc c r hr, if_neg (by simp [hc])]

lemma linesFrom_append_newline : ∃ gap : List Text, (gap = [] ∨ gap = [[]]) ∧
    ∀ r, linesFrom acc (t ++ '\n' :: r) = linesFrom acc t ++ gap ++ lines r := by
  induction acc, t using linesFrom.induct with
  | case1 acc h =>
    refine ⟨[[]], .inr rfl, fun r => ?_⟩
    rw [isEmpty_iff.1 h]
    rfl
  | case2 acc h =>
    refine ⟨[], .inl rfl, fun r => ?_⟩
    rw [linesFrom, if_neg h]
    rfl
  | case3 acc u ih =>
    obtain ⟨gap, hgap, hread⟩ := ih
    refine ⟨gap, hgap, fun r => ?_⟩
    rw [cons_append, cons_append, linesFrom_crlf, hread]
    rfl
  | case4 acc c u hu hc ih =>
    by_cases hr : c = '\r' ∧ u = []
    · obtain ⟨rfl, rfl⟩ := hr
      exact ⟨[], .inl rfl, fun r => rfl⟩
    · obtain ⟨gap, hgap, hread⟩ := ih
      refine ⟨gap, hgap, fun r => ?_⟩
      rw [cons_append, linesFrom_lineEnd acc hc hu, linesFrom_lineEnd acc hc, hread]
      · rfl
      · intro v hcr hv
        cases u with
        | nil => exact hr ⟨hcr, rfl⟩
        | cons d u =>
          exact hu u hcr (by rw [(cons.inj hv).1])
  | case5 acc c u hu hc ih =>
    have hc' : isLineEnd c = false := by simpa using hc
    simpa only [cons_append, linesFrom_other acc _ hc'] using ih

/-- **Reading in parts.**  A text after a line feed is read from where the text before it ends. -/
lemma text_append : s.text (t ++ '\n' :: r) = (s.text t).text r := by
  obtain ⟨gap, hgap, hread⟩ := linesFrom_append_newline [] t
  rw [text, lines, hread, foldl_append, foldl_append]
  rcases hgap with rfl | rfl
  · rfl
  · rw [foldl_cons, line_nil]
    rfl

lemma text_join : s.text (join "\n" ts ++ "\n") = s.texts ts := by
  have hnil : ∀ s : Tally, s.text [] = s := fun s => rfl
  induction ts generalizing s with
  | nil => exact (text_append s [] []).trans (hnil s)
  | cons t ts ih =>
    cases ts with
    | nil => exact (congrArg s.text (by simp [join])).trans (text_append s t [])
    | cons u us =>
      have hjoin : join "\n" (t :: u :: us) ++ "\n" = t ++ '\n' :: (join "\n" (u :: us) ++ "\n") := by
        simp [join]
      rw [texts_cons, ← ih, ← text_append, ← hjoin]

lemma foldl_linesFrom_indent (s : Tally) :
    (linesFrom (acc ++ List.replicate k ' ') t).foldl line s = (linesFrom acc t).foldl line s := by
  have hline : ∀ acc : Text, s.line (acc ++ replicate k ' ').reverse = s.line acc.reverse := by
    intro acc
    rw [reverse_append, reverse_replicate, line_replicate_append]
  induction acc, t using linesFrom.induct with
  | case1 acc h =>
    rw [isEmpty_iff.1 h]
    cases k with
    | zero => rfl
    | succ k =>
      have := hline []
      simpa [linesFrom] using this
  | case2 acc h =>
    have hne : (acc ++ replicate k ' ').isEmpty = false := by
      simp only [List.isEmpty_iff] at h
      simp [h]
    simpa [linesFrom, hne, h] using hline acc
  | case3 acc u ih => rw [linesFrom_crlf, linesFrom_crlf, foldl_cons, foldl_cons, hline]
  | case4 acc c u hu hc ih =>
    rw [linesFrom_lineEnd _ hc hu, linesFrom_lineEnd _ hc hu, foldl_cons, foldl_cons, hline]
  | case5 acc c u hu hc ih =>
    have hc' : isLineEnd c = false := by simpa using hc
    rw [linesFrom_other _ _ hc', linesFrom_other _ _ hc', ← cons_append, ih]

lemma text_replicate_append : s.text (List.replicate k ' ' ++ t) = s.text t := by
  have hread : ∀ acc, linesFrom acc (replicate k ' ' ++ t) =
      linesFrom (replicate k ' ' ++ acc) t := by
    induction k with
    | zero => exact fun acc => rfl
    | succ k ih =>
      intro acc
      rw [replicate_succ, cons_append, linesFrom_other _ _ (by decide), ih,
        ← singleton_append, ← append_assoc, ← replicate_succ',
        replicate_succ]
  have hindent := foldl_linesFrom_indent k [] t s
  rw [nil_append] at hindent
  rw [text, lines, hread, append_nil, hindent]
  rfl

/-- **Indentation.**  A line of the sheet counts like its text. -/
lemma text_indented (l : Line) : s.text (Sheet.indented l) = s.text l.text := by
  rw [Sheet.indented]
  split_ifs with h
  · rw [isEmpty_iff.1 h]
  · exact text_replicate_append s _ _

lemma texts_map_indented (ls : List Line) :
    s.texts (ls.map Sheet.indented) = s.texts (ls.map Line.text) := by
  induction ls generalizing s with
  | nil => rfl
  | cons l ls ih => rw [map_cons, map_cons, texts_cons, texts_cons, text_indented, ih]

/-! ## Rendered sheets -/

lemma exists_map_text_eq (body : List Line) :
    ∃ n, body.map Line.text = (Sheet.dropEmptyEnd body).map Line.text ++ List.replicate n [] := by
  have hsplit := takeWhile_append_dropWhile (p := fun l : Line => l.text.isEmpty) (l := body.reverse)
  have hbody : body = Sheet.dropEmptyEnd body ++
      (body.reverse.takeWhile fun l : Line => l.text.isEmpty).reverse := by
    rw [Sheet.dropEmptyEnd, ← reverse_append, hsplit, reverse_reverse]
  refine ⟨(body.reverse.takeWhile fun l : Line => l.text.isEmpty).length, ?_⟩
  conv_lhs => rw [hbody]
  rw [map_append]
  congr 1
  rw [eq_replicate_iff]
  refine ⟨by simp, fun t ht => ?_⟩
  obtain ⟨l, hl, rfl⟩ := mem_map.1 ht
  have := mem_takeWhile_imp (mem_reverse.1 hl)
  exact isEmpty_iff.1 this

lemma texts_replicate_nil (n : Nat) : s.texts (List.replicate n []) = s := by
  induction n with
  | zero => rfl
  | succ n ih => exact ih

lemma texts_dropEmptyEnd (body : List Line) :
    s.texts ((Sheet.dropEmptyEnd body).map Line.text) = s.texts (body.map Line.text) := by
  obtain ⟨n, hn⟩ := exists_map_text_eq body
  rw [hn, texts_append, texts_replicate_nil]

lemma map_text_closers (scopes : List Text) : (Sheet.closers scopes).map Line.text = scopes := by
  induction scopes with
  | nil => rfl
  | cons closer outer ih => rw [Sheet.closers, map_cons, ih]

/-- **A rendered sheet.**  The counter reads the imports, the lines of the body and the closers of
the scopes that are still open. -/
lemma text_render (sheet : Sheet) :
    s.text sheet.render =
      ((s.texts sheet.allImports).texts (sheet.body.map Line.text)).texts sheet.scopes := by
  have hheader : s.texts sheet.header = s.texts sheet.allImports := by
    rw [Sheet.header]
    split_ifs with h
    · rw [isEmpty_iff.1 h]
    · rw [texts_append]
      rfl
  rw [Sheet.render, text_join, texts_append, hheader, texts_map_indented, Sheet.closedBody,
    map_append, texts_append, texts_dropEmptyEnd, map_text_closers]

end Tally

end Restage.TypeScript
