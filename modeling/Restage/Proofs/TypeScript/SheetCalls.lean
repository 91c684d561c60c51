import Restage.Proofs.TypeScript.BraceCount

/-!
# Calls on a sheet

A sheet is written by a sequence of calls, in any order: lines are added, scopes are opened, chained
and closed, and lines are put in before earlier ones.  `Call` names the calls.

When every line has the braces that its call asks for, the rendered sheet is balanced, and no line
of it closes a brace that was not opened before (`render_nests`).  The invariant is `Sheet.Sound`:
the braces of the body never fall below zero and end at the number of open scopes.
-/

namespace Restage.TypeScript

open Text List Tally

/-! ## Lines by their braces -/

/-- The balance of the braces of a text that is counted by itself. -/
def balanceOf (t : Text) : Int := (Braces.ofText t).balance

/-- A text that stands on one line and starts no block comment, and whose opening braces exceed its
closing ones by `n`. -/
def IsLine (n : Int) (t : Text) : Prop :=
  (∀ c ∈ t, isLineEnd c = false) ∧ startsWith "/*" (trimLeft t) = false ∧ balanceOf t = n

/-- The characters of the text are looked at, not all characters that there are. -/
instance decidableOneLine (t : Text) : Decidable (∀ c ∈ t, isLineEnd c = false) :=
  List.decidableBAll (fun c => isLineEnd c = false) t

instance (n : Int) (t : Text) : Decidable (IsLine n t) := inferInstanceAs (Decidable (_ ∧ _ ∧ _))

variable {t : Text} {n : Int} {ts : List Text}

/-- A text without ends of lines is one line, unless it is empty. -/
lemma lines_eq_of_oneLine (h : ∀ c ∈ t, isLineEnd c = false) : lines t = if t.isEmpty then [] else [t] := by
  have hread : ∀ (u acc : Text), (∀ c ∈ u, isLineEnd c = false) →
      linesFrom acc u = linesFrom (u.reverse ++ acc) [] := by
    intro u
    induction u with
    | nil => exact fun acc _ => rfl
    | cons c u ih =>
      intro acc hu
      rw [linesFrom_other _ _ (hu c (by simp)), ih _ fun d hd => hu d (by simp [hd])]
      simp
  rw [lines, hread t [] h]
  simp [linesFrom]

lemma text_eq_of_oneLine (s : Tally) (h : ∀ c ∈ t, isLineEnd c = false) : s.text t = s.line t := by
  rw [Tally.text, lines_eq_of_oneLine h]
  split_ifs with ht
  · rw [isEmpty_iff.1 ht, line_nil]
    rfl
  · rfl

namespace IsLine

variable {n : Int} {t : Text}

lemma line_eq (h : IsLine n t) (m : Int) : Tally.line ⟨false, m⟩ t = ⟨false, m + n⟩ := by
  have hblock : (Tally.line {} t).inBlock = false := by
    simp only [Tally.line, h.2.1, Bool.or_false, Bool.false_eq_true, if_false]
  have hbalance : (Tally.line {} t).balance = n := by
    rw [← text_eq_of_oneLine {} h.1, ← balance_ofText]
    exact h.2.2
  have hplus := line_plus {} m t
  rw [Tally.plus, Tally.plus, hblock, hbalance] at hplus
  simpa [Int.add_comm] using hplus

lemma indent (h : IsLine n t) (k : Nat) : IsLine n (List.replicate k ' ' ++ t) := by
  refine ⟨?_, ?_, ?_⟩
  · intro c hc
    rcases mem_append.1 hc with hc | hc
    · rw [eq_of_mem_replicate hc]
      decide
    · exact h.1 c hc
  · have htrim : trimLeft (replicate k ' ' ++ t) = trimLeft t := by
      induction k with
      | zero => rfl
      | succ k ih => exact ih
    rw [htrim]
    exact h.2.1
  · rw [balanceOf, balance_ofText, text_replicate_append, ← balance_ofText]
    exact h.2.2

lemma nil : IsLine 0 [] := by decide

end IsLine

/-- A comment has no braces, whatever it says. -/
lemma isLine_comment (ht : ∀ c ∈ t, isLineEnd c = false) : IsLine 0 ("// " ++ t) := by
  have hslashes : ∀ c ∈ ("// " : Text), isLineEnd c = false := by decide
  have hone : ∀ c ∈ ("// " : Text) ++ t, isLineEnd c = false := by
    intro c hc
    rcases mem_append.1 hc with hc | hc
    · exact hslashes c hc
    · exact ht c hc
  refine ⟨hone, rfl, ?_⟩
  rw [balanceOf, balance_ofText, text_eq_of_oneLine {} hone]
  rfl

/-! ## Sums of balances -/

/-- The balances of some lines, added up. -/
def total (ts : List Text) : Int := (ts.map balanceOf).sum

@[simp] lemma total_nil : total [] = 0 := rfl

@[simp] lemma total_cons (t : Text) (ts : List Text) : total (t :: ts) = balanceOf t + total ts := by
  simp [total]

@[simp] lemma total_append (ts us : List Text) : total (ts ++ us) = total ts + total us := by
  simp [total]

lemma total_eq_length_mul (h : ∀ t ∈ ts, IsLine n t) : total ts = ts.length * n := by
  induction ts with
  | nil => simp
  | cons t ts ih =>
    have ht : balanceOf t = n := (h t (by simp)).2.2
    rw [total_cons, ht, ih fun u hu => h u (by simp [hu]), length_cons, Int.natCast_succ,
      Int.add_mul, Int.one_mul, Int.add_comm]

/-- The sums of the balances from `n` on are never negative. -/
def NonNeg (n : Int) : List Text → Prop
  | [] => 0 ≤ n
  | t :: ts => 0 ≤ n ∧ NonNeg (n + balanceOf t) ts

lemma nonNeg_append {us : List Text} : NonNeg n (ts ++ us) ↔ NonNeg n ts ∧ NonNeg (n + total ts) us := by
  induction ts generalizing n with
  | nil =>
    rw [total_nil, Int.add_zero]
    refine ⟨fun h => ⟨?_, h⟩, fun h => h.2⟩
    cases us with
    | nil => exact h
    | cons u us => exact h.1
  | cons t ts ih =>
    rw [cons_append, NonNeg, NonNeg, ih, total_cons, and_assoc, Int.add_assoc]

lemma NonNeg.total (h : NonNeg n ts) : 0 ≤ n + total ts := by
  have hnil : NonNeg n (ts ++ []) := by rwa [append_nil]
  exact (nonNeg_append.1 hnil).2

lemma nonNeg_of_neutral (hn : 0 ≤ n) (h : ∀ t ∈ ts, IsLine 0 t) : NonNeg n ts := by
  induction ts with
  | nil => exact hn
  | cons t ts ih =>
    have ht : balanceOf t = 0 := (h t (by simp)).2.2
    refine ⟨hn, ?_⟩
    rw [ht, Int.add_zero]
    exact ih fun u hu => h u (by simp [hu])

lemma nonNeg_closers (h : ∀ t ∈ ts, IsLine (-1) t) : NonNeg ts.length ts := by
  induction ts with
  | nil => exact Int.le_refl 0
  | cons t ts ih =>
    have ht : balanceOf t = -1 := (h t (by simp)).2.2
    refine ⟨Int.natCast_nonneg _, ?_⟩
    rw [ht, length_cons, Int.natCast_succ, Int.add_neg_cancel_right]
    exact ih fun u hu => h u (by simp [hu])

/-! ## Calls -/

/-- A call on a sheet that changes it. -/
inductive Call where
  | addImport (statement : Text)
  | emit (lines : List Text)
  | comment (text : Text)
  | blank
  | openScope (line closer : Text)
  | chain (line : Text)
  | closeScope
  | insert (position : Int) (lines : List Text)
  deriving DecidableEq, Repr

namespace Sheet

/-- The sheet after a call.  Inserting before the start is refused and leaves the sheet as it is. -/
def perform (s : Sheet) : Call → Sheet
  | .addImport statement => s.addImport statement
  | .emit lines => s.emitAll lines
  | .comment text => s.comment text
  | .blank => s.blank
  | .openScope line closer => s.openScope line closer
  | .chain line => s.chain line
  | .closeScope => s.closeScope
  | .insert position lines => (s.insert? position lines).getD s

/-- The sheet after some calls. -/
def performAll (s : Sheet) (calls : List Call) : Sheet := calls.foldl perform s

variable (s : Sheet) (c : Call) (calls : List Call)

@[simp] lemma performAll_nil : s.performAll [] = s := rfl

@[simp] lemma performAll_cons : s.performAll (c :: calls) = (s.perform c).performAll calls := rfl

lemma performAll_append (calls' : List Call) :
    s.performAll (calls ++ calls') = (s.performAll calls).performAll calls' :=
  foldl_append ..

/-! Chaining and closing, by the scopes that are open. -/

section Scopes

variable {s : Sheet} {closer : Text} {outer : List Text}

lemma chain_of_scopes (h : s.scopes = closer :: outer) (line : Text) :
    s.chain line =
      { s with body := s.body ++ [⟨outer.length, line⟩], scopes := closer :: outer } := by
  simp [chain, h, openScope, emit, depth]

lemma closeScope_of_none (h : s.scopes = []) :
    s.closeScope = { s with droppedClosers := s.droppedClosers + 1 } := by
  simp [closeScope, h]

lemma closeScope_of_scopes (h : s.scopes = closer :: outer) :
    s.closeScope = { s with body := s.body ++ [⟨outer.length, closer⟩], scopes := outer } := by
  simp [closeScope, h, emit, depth]

end Scopes

/-- How many scopes are open after a call, if `n` were open before it. -/
def levelAfter (n : Nat) : Call → Nat
  | .openScope _ _ => n + 1
  | .closeScope => n - 1
  | .chain _ => max n 1
  | .addImport _ | .emit _ | .comment _ | .blank | .insert _ _ => n

lemma depth_perform : (s.perform c).depth = levelAfter s.depth c := by
  have hemit : ∀ (lines : List Text) (s : Sheet), (s.emitAll lines).depth = s.depth := by
    intro lines
    induction lines with
    | nil => exact fun s => rfl
    | cons line lines ih => exact fun s => ih (s.emit line)
  cases c with
  | emit lines => exact hemit lines s
  | blank =>
    rw [perform, blank]
    split
    · split_ifs <;> rfl
    · rfl
  | chain line =>
    simp only [perform, chain, levelAfter, depth]
    cases hs : s.scopes with
    | nil => simp [openScope, emit, hs]
    | cons closer outer => simp [openScope, emit]
  | closeScope =>
    simp only [perform, closeScope, levelAfter, depth]
    cases hs : s.scopes with
    | nil => rfl
    | cons closer outer => simp [emit]
  | insert position lines =>
    rw [perform, insert?]
    cases s.depthAt? position <;> rfl
  | addImport | comment | openScope => rfl

lemma depth_performAll : (s.performAll calls).depth = calls.foldl levelAfter s.depth := by
  induction calls generalizing s with
  | nil => rfl
  | cons c calls ih => rw [performAll_cons, ih, depth_perform, foldl_cons]

/-- Whether the lines of a call have the braces that the call asks for.  A line that opens a scope
has one more opening than closing brace, and what closes it one less; all other lines are even, and
comments may say anything on one line.  A scope is chained only while one is open. -/
def Fits (s : Sheet) : Call → Prop
  | .addImport statement => IsLine 0 statement
  | .emit lines => ∀ t ∈ lines, IsLine 0 t
  | .comment text => ∀ c ∈ text, isLineEnd c = false
  | .blank => True
  | .openScope line closer => IsLine 1 line ∧ IsLine (-1) closer
  | .chain line => IsLine 0 line ∧ s.scopes ≠ []
  | .closeScope => True
  | .insert _ lines => ∀ t ∈ lines, IsLine 0 t

/-- Whether something holds of each of some calls, on the sheet that the calls before it leave. -/
def Along (P : Sheet → Call → Prop) (s : Sheet) : List Call → Prop
  | [] => True
  | c :: calls => P s c ∧ (s.perform c).Along P calls

lemma along_append {P : Sheet → Call → Prop} {s : Sheet} {calls calls' : List Call} :
    s.Along P (calls ++ calls') ↔ s.Along P calls ∧ (s.performAll calls).Along P calls' := by
  induction calls generalizing s with
  | nil => simp [Along]
  | cons c calls ih => rw [cons_append, Along, Along, ih, performAll_cons, and_assoc]

lemma along_of_forall {P : Sheet → Call → Prop} {calls : List Call} (h : ∀ c ∈ calls, ∀ s, P s c)
    (s : Sheet) : s.Along P calls := by
  induction calls generalizing s with
  | nil => trivial
  | cons c calls ih => exact ⟨h c (by simp) s, ih (fun d hd => h d (by simp [hd])) _⟩

instance (s : Sheet) : (c : Call) → Decidable (s.Fits c)
  | .addImport statement => inferInstanceAs (Decidable (IsLine 0 statement))
  | .emit lines => inferInstanceAs (Decidable (∀ t ∈ lines, IsLine 0 t))
  | .comment text => inferInstanceAs (Decidable (∀ c ∈ text, isLineEnd c = false))
  | .blank => isTrue trivial
  | .openScope line closer => inferInstanceAs (Decidable (IsLine 1 line ∧ IsLine (-1) closer))
  | .chain line => inferInstanceAs (Decidable (IsLine 0 line ∧ s.scopes ≠ []))
  | .closeScope => isTrue trivial
  | .insert _ lines => inferInstanceAs (Decidable (∀ t ∈ lines, IsLine 0 t))

instance decidableAlong {P : Sheet → Call → Prop} [∀ s c, Decidable (P s c)] :
    (s : Sheet) → (calls : List Call) → Decidable (s.Along P calls)
  | _, [] => isTrue trivial
  | s, c :: calls =>
    have : Decidable ((s.perform c).Along P calls) := decidableAlong _ calls
    inferInstanceAs (Decidable (P s c ∧ (s.perform c).Along P calls))

/-! ## The invariant -/

lemma mem_addNew {u : Text} : t ∈ addNew ts u ↔ t ∈ ts ∨ t = u := by
  rw [addNew]
  split_ifs with hu
  · have hu : u ∈ ts := by simpa using hu
    exact ⟨.inl, fun h => h.elim id fun ht => ht ▸ hu⟩
  · simp

lemma mem_foldl_addNew {acc : List Text} : t ∈ ts.foldl addNew acc ↔ t ∈ acc ∨ t ∈ ts := by
  induction ts generalizing acc with
  | nil => simp
  | cons u ts ih => rw [foldl_cons, ih, mem_addNew, mem_cons, or_assoc]

def bodyTexts (s : Sheet) : List Text := s.body.map Line.text

/-- A sheet all of whose lines have the braces that their calls asked for: going down the body, the
braces never fall below zero, and they end at the number of open scopes. -/
structure Sound (s : Sheet) : Prop where
  imports : ∀ t ∈ s.baseImports ++ s.imports, IsLine 0 t
  lines : ∀ t ∈ s.bodyTexts, IsLine (balanceOf t) t
  closers : ∀ t ∈ s.scopes, IsLine (-1) t
  nonNeg : NonNeg 0 s.bodyTexts
  total : total s.bodyTexts = s.depth

namespace Sound

variable {s : Sheet}

variable (h : s.Sound) {lines : List Text} {line : Text}
include h

lemma write {scopes : List Text} (d : Nat) (hline : IsLine n line)
    (hscopes : ∀ t ∈ scopes, IsLine (-1) t) (hdepth : (scopes.length : Int) = s.scopes.length + n) :
    Sound { s with body := s.body ++ [⟨d, line⟩], scopes := scopes } := by
  have htexts : bodyTexts { s with body := s.body ++ [⟨d, line⟩], scopes := scopes } =
      s.bodyTexts ++ [line] := map_append ..
  have htotal : TypeScript.total s.bodyTexts + n = scopes.length := by
    rw [h.total, hdepth]
    rfl
  refine ⟨h.imports, ?_, hscopes, ?_, ?_⟩
  · rw [htexts]
    intro t ht
    rcases mem_append.1 ht with ht | ht
    · exact h.lines t ht
    · rw [mem_singleton.1 ht, hline.2.2]
      exact hline
  · rw [htexts, nonNeg_append, Int.zero_add, h.total]
    refine ⟨h.nonNeg, Int.natCast_nonneg _, ?_⟩
    rw [hline.2.2, ← h.total, htotal]
    exact Int.natCast_nonneg _
  · rw [htexts, total_append, total_cons, total_nil, Int.add_zero, hline.2.2, htotal]
    rfl

lemma emit (hline : IsLine 0 line) : (s.emit line).Sound :=
  h.write s.depth hline h.closers (Int.add_zero _).symm

lemma emitAll (hlines : ∀ t ∈ lines, IsLine 0 t) : (s.emitAll lines).Sound := by
  induction lines generalizing s with
  | nil => exact h
  | cons line lines ih =>
    exact ih (h.emit (hlines line (by simp))) fun t ht => hlines t (by simp [ht])

lemma blank : s.blank.Sound := by
  rw [Sheet.blank]
  split
  · split_ifs
    · exact h
    · exact h.write 0 IsLine.nil h.closers (Int.add_zero _).symm
  · exact h

lemma openScope {closer : Text} (hline : IsLine 1 line) (hcloser : IsLine (-1) closer) :
    (s.openScope line closer).Sound := by
  apply h.write s.depth hline
  · intro t ht
    rcases mem_cons.1 ht with rfl | ht
    · exact hcloser
    · exact h.closers t ht
  · exact Int.natCast_succ s.scopes.length

lemma chain (hline : IsLine 0 line) (hscopes : s.scopes ≠ []) : (s.chain line).Sound := by
  cases hs : s.scopes with
  | nil => exact absurd hs hscopes
  | cons closer outer =>
    rw [chain_of_scopes hs]
    exact h.write outer.length hline (hs ▸ h.closers) (by simp [hs])

lemma closeScope : s.closeScope.Sound := by
  cases hs : s.scopes with
  | nil =>
    rw [closeScope_of_none hs]
    exact ⟨h.imports, h.lines, h.closers, h.nonNeg, h.total⟩
  | cons closer outer =>
    have hclosers : ∀ t ∈ closer :: outer, IsLine (-1) t := hs ▸ h.closers
    rw [closeScope_of_scopes hs]
    exact h.write outer.length (hclosers closer (by simp)) (fun t ht => hclosers t (by simp [ht]))
      (by simp [hs])

lemma addImport {statement : Text} (hs : IsLine 0 statement) : (s.addImport statement).Sound := by
  refine ⟨?_, h.lines, h.closers, h.nonNeg, h.total⟩
  intro t ht
  rcases mem_append.1 ht with ht | ht
  · exact h.imports t (mem_append_left _ ht)
  · rcases mem_addNew.1 ht with ht | rfl
    · exact h.imports t (mem_append_right _ ht)
    · exact hs

lemma insertLine (position : Int) (line : Line) (hline : IsLine 0 line.text) :
    Sound { s with body := Sheet.insertLine s.body position line } := by
  obtain ⟨i, hi⟩ : ∃ i, Sheet.insertLine s.body position line =
      s.body.take i ++ line :: s.body.drop i := ⟨_, rfl⟩
  have hsplit : s.bodyTexts = (s.body.take i).map Line.text ++ (s.body.drop i).map Line.text := by
    rw [← map_append, take_append_drop]
    rfl
  have htexts : bodyTexts { s with body := Sheet.insertLine s.body position line } =
      (s.body.take i).map Line.text ++ line.text :: (s.body.drop i).map Line.text := by
    rw [bodyTexts, hi, map_append, map_cons]
  have hnonNeg := h.nonNeg
  have htotal := h.total
  rw [hsplit, nonNeg_append] at hnonNeg
  rw [hsplit, total_append] at htotal
  refine ⟨h.imports, ?_, h.closers, ?_, ?_⟩
  · rw [htexts]
    intro t ht
    rcases mem_append.1 ht with ht | ht
    · exact h.lines t (hsplit ▸ mem_append_left _ ht)
    · rcases mem_cons.1 ht with rfl | ht
      · rw [hline.2.2]
        exact hline
      · exact h.lines t (hsplit ▸ mem_append_right _ ht)
  · rw [htexts, nonNeg_append, NonNeg, hline.2.2, Int.add_zero]
    exact ⟨hnonNeg.1, hnonNeg.1.total, hnonNeg.2⟩
  · rw [htexts, total_append, total_cons, hline.2.2, Int.zero_add]
    exact htotal

lemma insertLines (d : Nat) (position : Int) (hlines : ∀ t ∈ lines, IsLine 0 t) :
    Sound { s with body := Sheet.insertLines d s.body position lines } := by
  induction lines generalizing s position with
  | nil => exact h
  | cons line lines ih =>
    exact ih (h.insertLine position ⟨d, line⟩ (hlines line (by simp))) (position + 1)
      fun t ht => hlines t (by simp [ht])

/-- **One call** that fits keeps the sheet sound. -/
lemma perform {c : Call} (hc : s.Fits c) : (s.perform c).Sound := by
  cases c with
  | addImport statement => exact h.addImport hc
  | emit lines => exact h.emitAll hc
  | comment text =>
    refine h.emit ?_
    split_ifs
    · decide
    · exact isLine_comment hc
  | blank => exact h.blank
  | openScope line closer => exact h.openScope hc.1 hc.2
  | chain line => exact h.chain hc.1 hc.2
  | closeScope => exact h.closeScope
  | insert position lines =>
    rw [Sheet.perform, insert?]
    cases s.depthAt? position with
    | none => exact h
    | some d => exact h.insertLines d position hc

/-- **A run of calls**, each of which fits when it is made, keeps the sheet sound. -/
lemma performAll {calls : List Call} (hc : s.Along Sheet.Fits calls) : (s.performAll calls).Sound := by
  induction calls generalizing s with
  | nil => exact h
  | cons c calls ih => exact ih (h.perform hc.1) hc.2

end Sound

/-! ## Rendering a sound sheet -/

lemma lines_append_newline (h : ∀ c ∈ t, isLineEnd c = false) (r : Text) :
    lines (t ++ '\n' :: r) = t :: lines r := by
  have hread : ∀ (u acc : Text), (∀ c ∈ u, isLineEnd c = false) →
      linesFrom acc (u ++ '\n' :: r) = (acc.reverse ++ u) :: lines r := by
    intro u
    induction u with
    | nil =>
      intro acc _
      rw [append_nil]
      rfl
    | cons c u ih =>
      intro acc hu
      rw [cons_append, linesFrom_other _ _ (hu c (by simp)), ih _ fun d hd => hu d (by simp [hd])]
      simp
  exact hread t [] h

lemma lines_join (hne : ts ≠ []) (h : ∀ t ∈ ts, ∀ c ∈ t, isLineEnd c = false) :
    lines (join "\n" ts ++ "\n") = ts := by
  induction ts with
  | nil => exact absurd rfl hne
  | cons t ts ih =>
    cases ts with
    | nil =>
      have hjoin : join "\n" [t] ++ "\n" = t ++ '\n' :: [] := by simp [join]
      rw [hjoin, lines_append_newline (h t (by simp))]
      rfl
    | cons u us =>
      have hjoin : join "\n" (t :: u :: us) ++ "\n" =
          t ++ '\n' :: (join "\n" (u :: us) ++ "\n") := by
        simp [join]
      rw [hjoin, lines_append_newline (h t (by simp)), ih (by simp) fun v hv => h v (by simp [hv])]

lemma balance_ofLines (h : ∀ t ∈ ts, IsLine (balanceOf t) t) :
    (Braces.ofLines false ts).balance = TypeScript.total ts := by
  have hfold : ∀ m : Int, ts.foldl Tally.line ⟨false, m⟩ = ⟨false, m + total ts⟩ := by
    induction ts with
    | nil => intro m; simp
    | cons t ts ih =>
      intro m
      rw [foldl_cons, (h t (by simp)).line_eq, ih fun u hu => h u (by simp [hu]), total_cons,
        Int.add_assoc]
  have hbalance := balance_foldl_line ts ⟨false, 0⟩
  rw [hfold 0] at hbalance
  simpa using hbalance.symm

def renderedLines (s : Sheet) : List Text := s.header ++ s.closedBody.map indented

lemma balanceOf_indented (l : Line) : balanceOf (indented l) = balanceOf l.text := by
  rw [balanceOf, balanceOf, balance_ofText, balance_ofText, text_indented]

lemma total_map_indented (ls : List Line) :
    TypeScript.total (ls.map indented) = TypeScript.total (ls.map Line.text) := by
  induction ls with
  | nil => rfl
  | cons l ls ih => rw [map_cons, map_cons, total_cons, total_cons, balanceOf_indented, ih]

lemma nonNeg_map_indented {ls : List Line} : NonNeg n (ls.map indented) ↔ NonNeg n (ls.map Line.text) := by
  induction ls generalizing n with
  | nil => exact Iff.rfl
  | cons l ls ih => rw [map_cons, map_cons, NonNeg, NonNeg, balanceOf_indented, ih]

lemma isLine_indented {l : Line} (h : IsLine (balanceOf l.text) l.text) :
    IsLine (balanceOf (indented l)) (indented l) := by
  rw [balanceOf_indented, indented]
  split_ifs with hempty
  · rw [← isEmpty_iff.1 hempty]
    exact h
  · exact h.indent _

namespace Sound

variable {s : Sheet}

lemma header (h : s.Sound) : ∀ t ∈ s.header, IsLine 0 t := by
  intro t ht
  rw [Sheet.header] at ht
  split_ifs at ht
  · cases ht
  · rcases mem_append.1 ht with ht | ht
    · exact h.imports t (by simpa using mem_foldl_addNew.1 ht)
    · rw [mem_singleton.1 ht]
      exact IsLine.nil

lemma closedBody (h : s.Sound) :
    (∀ t ∈ s.closedBody.map Line.text, IsLine (balanceOf t) t) ∧
      NonNeg 0 (s.closedBody.map Line.text) ∧
      TypeScript.total (s.closedBody.map Line.text) = 0 := by
  obtain ⟨n, hn⟩ := exists_map_text_eq s.body
  have hn : s.bodyTexts = (dropEmptyEnd s.body).map Line.text ++ replicate n [] := hn
  have htotal := h.total
  have hnonNeg := h.nonNeg
  have hempty : TypeScript.total (replicate n []) = 0 := by
    rw [total_eq_length_mul (n := 0), Int.mul_zero]
    intro t ht
    rw [eq_of_mem_replicate ht]
    exact IsLine.nil
  rw [hn, total_append, hempty, Int.add_zero] at htotal
  rw [hn, nonNeg_append] at hnonNeg
  have hclosed : s.closedBody.map Line.text = (dropEmptyEnd s.body).map Line.text ++ s.scopes := by
    rw [Sheet.closedBody, map_append, map_text_closers]
  refine ⟨?_, ?_, ?_⟩
  · rw [hclosed]
    intro t ht
    rcases mem_append.1 ht with ht | ht
    · exact h.lines t (hn ▸ mem_append_left _ ht)
    · rw [(h.closers t ht).2.2]
      exact h.closers t ht
  · rw [hclosed, nonNeg_append, htotal, Int.zero_add]
    exact ⟨hnonNeg.1, nonNeg_closers h.closers⟩
  · rw [hclosed, total_append, htotal, total_eq_length_mul h.closers, depth]
    omega

lemma renderedLines (h : s.Sound) :
    (∀ t ∈ s.renderedLines, IsLine (balanceOf t) t) ∧ NonNeg 0 s.renderedLines ∧
      TypeScript.total s.renderedLines = 0 := by
  obtain ⟨hlines, hnonNeg, htotal⟩ := h.closedBody
  have hheader : TypeScript.total s.header = 0 := by
    rw [total_eq_length_mul h.header, Int.mul_zero]
  refine ⟨?_, ?_, ?_⟩
  · intro t ht
    rcases mem_append.1 ht with ht | ht
    · rw [(h.header t ht).2.2]
      exact h.header t ht
    · obtain ⟨l, hl, rfl⟩ := mem_map.1 ht
      exact isLine_indented (hlines _ (mem_map_of_mem hl))
  · rw [Sheet.renderedLines, nonNeg_append, hheader, nonNeg_map_indented]
    exact ⟨nonNeg_of_neutral (Int.le_refl 0) h.header, hnonNeg⟩
  · rw [Sheet.renderedLines, total_append, hheader, total_map_indented, htotal, Int.zero_add]

lemma lines_render (h : s.Sound) :
    (∀ t ∈ Text.lines s.render, IsLine (balanceOf t) t) ∧ NonNeg 0 (Text.lines s.render) ∧
      TypeScript.total (Text.lines s.render) = 0 := by
  by_cases hne : s.renderedLines = []
  · have hlines : Text.lines s.render = [[]] := by
      rw [render, ← Sheet.renderedLines, hne]
      rfl
    rw [hlines]
    exact ⟨by decide, nonNeg_of_neutral (Int.le_refl 0) (by decide), by decide⟩
  · have hlines : Text.lines s.render = s.renderedLines := by
      exact lines_join hne fun t ht => (h.renderedLines.1 t ht).1
    rw [hlines]
    exact h.renderedLines

lemma opens_eq_closes (h : s.Sound) :
    (Braces.ofText s.render).opens = (Braces.ofText s.render).closes := by
  obtain ⟨hlines, -, htotal⟩ := h.lines_render
  have hbalance := balance_ofLines hlines
  rw [← Braces.ofText, Braces.balance] at hbalance
  omega

lemma closes_le_opens (h : s.Sound) {shown : List Text} (hshown : shown <+: Text.lines s.render) :
    (Braces.ofLines false shown).closes ≤ (Braces.ofLines false shown).opens := by
  obtain ⟨hlines, hnonNeg, -⟩ := h.lines_render
  obtain ⟨rest, hrest⟩ := hshown
  have hbalance : (Braces.ofLines false shown).balance = TypeScript.total shown :=
    balance_ofLines fun t ht => hlines t (hrest ▸ mem_append_left _ ht)
  rw [← hrest, nonNeg_append] at hnonNeg
  have htotal := hnonNeg.1.total
  rw [← hbalance, Braces.balance] at htotal
  omega

end Sound

end Sheet

/-- **Nesting.**  When the base imports are even and every call has lines with the braces that it
asks for, in whatever order the calls come and however often more is closed than is open, the
rendered sheet opens as many braces as it closes, and no prefix of its lines closes more than it
opens. -/
theorem render_nests (base : List Text) (calls : List Call) (hbase : ∀ t ∈ base, IsLine 0 t)
    (hcalls : Sheet.Along Sheet.Fits { baseImports := base } calls) :
    let code := (Sheet.performAll { baseImports := base } calls).render
    (Braces.ofText code).opens = (Braces.ofText code).closes ∧
      ∀ shown, shown <+: lines code →
        (Braces.ofLines false shown).closes ≤ (Braces.ofLines false shown).opens := by
  have hstart : Sheet.Sound { baseImports := base } :=
    ⟨by simpa using hbase, by simp [Sheet.bodyTexts], by simp, Int.le_refl 0, rfl⟩
  have hsound := hstart.performAll hcalls
  exact ⟨hsound.opens_eq_closes, fun _ => hsound.closes_le_opens⟩

/-- A run that closes with nothing open, chains, inserts before an earlier line and before the
start, comments out a brace, quotes one, and leaves two scopes open. -/
theorem render_nests_unfinished :
    let base : List Text := ["import \x7b Page \x7d from 'playwright';"]
    let calls : List Call :=
      [.closeScope, .openScope "if (a) \x7b" "\x7d", .emit ["say('\x7d');", ""],
        .chain "\x7d else \x7b", .comment "\x7b is not closed", .insert 1 ["first();"],
        .insert (-9) ["never();"], .openScope "Given('x', () => \x7b" "\x7d);", .blank,
        .addImport "import 'y';"]
    (∀ t ∈ base, IsLine 0 t) ∧ Sheet.Along Sheet.Fits { baseImports := base } calls ∧
      let code := (Sheet.performAll { baseImports := base } calls).render
      (Braces.ofText code).opens = (Braces.ofText code).closes ∧
        ∀ shown, shown <+: lines code →
          (Braces.ofLines false shown).closes ≤ (Braces.ofLines false shown).opens :=
  ⟨by decide, by decide, render_nests _ _ (by decide) (by decide)⟩

end Restage.TypeScript
