import Restage.Proofs.Conversion.Recording
import Restage.Proofs.TypeScript.ShownLines

/-!
# Texts that are written as comments

Two texts come from elsewhere and are written behind `//`: the description of an element, which is
decoded from its locator, and the note of a pattern, which the recognizer gives.  Either is one line
of the sheet, but a reader cuts the code at every line end, also at one inside of the text.  The
lines that such a text becomes are comments exactly if each line after the first one starts with
`//` again (`decoded_text_commented_iff`).
-/

namespace Restage.Conversion

open Text Java TypeScript List

variable {c : Call} {text : Text}

/-- A line that is a comment, behind its indentation. -/
def IsCommentLine (line : Text) : Prop := startsWith "//" (trimLeft line) = true

instance (line : Text) : Decidable (IsCommentLine line) := inferInstanceAs (Decidable (_ = true))

/-- A call writes a text as a comment: the description of an element, or the note of a pattern. -/
inductive Comments : Call → Text → Prop
  | description (d : Text) : Comments (.comment d) (if d.isEmpty then "//" else "// " ++ d)
  | pattern (mark : Nat) (p : Pattern) : Comments (.insert mark [Walk.patternNote p]) (Walk.patternNote p)

/-- The lines of the code that a line of a sheet becomes. -/
def contributed (depth : Nat) (text : Text) : List Text :=
  lines (List.replicate (2 * depth) ' ' ++ text ++ "\n")

/-! ## The lines of one text -/

lemma exists_linesFrom_eq {u : Text} (hu : u ≠ []) :
    ∃ first rest, ∀ acc, linesFrom acc u = (acc.reverse ++ first) :: rest := by
  induction u with
  | nil => exact absurd rfl hu
  | cons c r ih =>
    by_cases hc : isLineEnd c = true
    · by_cases hr : ∃ v, c = '\r' ∧ r = '\n' :: v
      · obtain ⟨v, rfl, rfl⟩ := hr
        exact ⟨[], lines v, fun acc => by rw [Tally.linesFrom_crlf, append_nil, lines]⟩
      · refine ⟨[], lines r, fun acc => ?_⟩
        rw [Tally.linesFrom_lineEnd acc hc fun v hcr hv => hr ⟨v, hcr, hv⟩, append_nil, lines]
    · have hc : isLineEnd c = false := by simpa using hc
      cases r with
      | nil => exact ⟨[c], [], fun acc => by simp [Tally.linesFrom_other _ _ hc, linesFrom]⟩
      | cons d r =>
        obtain ⟨first, rest, hread⟩ := ih (cons_ne_nil d r)
        exact ⟨c :: first, rest, fun acc => by rw [Tally.linesFrom_other _ _ hc, hread]; simp⟩

lemma contributed_slashes (depth : Nat) (r : Text) : ∃ first rest,
    lines ('/' :: '/' :: r ++ "\n") = ('/' :: '/' :: first) :: rest ∧
      contributed depth ('/' :: '/' :: r) = (List.replicate (2 * depth) ' ' ++ '/' :: '/' :: first) :: rest := by
  obtain ⟨first, rest, hread⟩ := exists_linesFrom_eq (u := r ++ "\n") (by simp)
  have hslashes : ∀ acc, linesFrom acc ('/' :: '/' :: (r ++ "\n")) = (acc.reverse ++ '/' :: '/' :: first) :: rest := by
    intro acc
    rw [Tally.linesFrom_other _ _ (by decide), Tally.linesFrom_other _ _ (by decide), hread]
    simp
  have hblanks : ∀ (n : Nat) (acc u : Text),
      linesFrom acc (replicate n ' ' ++ u) = linesFrom (replicate n ' ' ++ acc) u := by
    intro n
    induction n with
    | zero => exact fun acc u => rfl
    | succ n ih =>
      intro acc u
      have hswap : replicate n ' ' ++ ' ' :: acc = replicate (n + 1) ' ' ++ acc := by
        rw [replicate_succ', append_assoc, singleton_append]
      rw [replicate_succ, cons_append, Tally.linesFrom_other _ _ (by decide), ih, hswap]
      rfl
  refine ⟨first, rest, hslashes [], ?_⟩
  rw [contributed, lines, append_assoc, hblanks, append_nil]
  exact (hslashes _).trans (by rw [reverse_replicate])

lemma isCommentLine_slashes (n : Nat) (r : Text) : IsCommentLine (List.replicate n ' ' ++ '/' :: '/' :: r) := by
  induction n with
  | zero => rfl
  | succ n ih => exact ih

lemma Comments.exists_eq (h : Comments c text) : ∃ r, text = '/' :: '/' :: r := by
  cases h with
  | description d =>
    split_ifs
    · exact ⟨[], rfl⟩
    · exact ⟨' ' :: d, rfl⟩
  | pattern mark p => exact ⟨_, rfl⟩

/-! ## Their place in the code -/

lemma Comments.mem_bodyTexts (h : Comments c text) (s : Sheet) :
    text ∈ (s.perform c).bodyTexts := by
  cases h with
  | description d =>
    have hbody := s.bodyTexts_emitAll [if d.isEmpty then "//" else "// " ++ d]
    exact hbody ▸ mem_append_right _ mem_cons_self
  | pattern mark p =>
    obtain ⟨depth, hdepth⟩ : ∃ depth, s.depthAt? mark = some depth := by
      rw [Sheet.depthAt?]
      dsimp only
      rw [if_neg (Int.not_lt.2 (Int.natCast_nonneg mark))]
      split_ifs with hlast hbefore
      · exact ⟨_, rfl⟩
      · omega
      · have hmark : mark < s.body.length := by omega
        exact ⟨_, by rw [Int.toNat_natCast, getElem?_eq_getElem hmark, Option.map_some]⟩
    rw [Sheet.perform, Sheet.insert?, hdepth]
    refine List.mem_map.2 ⟨⟨depth, Walk.patternNote p⟩, ?_, rfl⟩
    exact mem_append_right _ mem_cons_self

lemma exists_lines_render {s : Sheet} (h : text ∈ s.bodyTexts) (hne : text ≠ []) :
    ∃ earlier depth later, lines s.render = earlier ++ contributed depth text ++ later := by
  obtain ⟨l, hl, rfl⟩ := mem_map.1 h
  have hkept : l ∈ Sheet.dropEmptyEnd s.body :=
    singleton_sublist.1 (Sheet.sublist_dropEmptyEnd (singleton_sublist.2 hl) (by simpa using hne))
  have hmem : Sheet.indented l ∈ s.header ++ s.closedBody.map Sheet.indented :=
    mem_append_right _ (mem_map_of_mem (mem_append_left _ hkept))
  obtain ⟨before, after, hsplit⟩ := append_of_mem hmem
  have hindented : Sheet.indented l = replicate (2 * l.depth) ' ' ++ l.text := by
    rw [Sheet.indented, if_neg (by simpa using hne)]
  rw [Sheet.render, lines_joined (by simp [hsplit]), hsplit, flatMap_append, flatMap_cons, hindented,
    ← append_assoc]
  exact ⟨_, l.depth, _, rfl⟩

/-- **Texts from elsewhere** in the code of a file.  What the description of an element and the note
of a pattern become there are lines that follow each other; all of them are comments exactly if each
line of the text after the first one is one by itself.  A text without line ends becomes one
line. -/
theorem decoded_text_commented_iff {t : Task} {o : Output} (h : t.run = .ok o) {c : Call} {text : Text}
    (hc : c ∈ t.calls) (hcomments : Comments c text) :
    ∃ earlier depth later, lines o.code = earlier ++ contributed depth text ++ later ∧
      ((∀ line ∈ contributed depth text, IsCommentLine line) ↔
        ∀ line ∈ (lines (text ++ "\n")).tail, IsCommentLine line) ∧
      (OneLine text → contributed depth text = [List.replicate (2 * depth) ' ' ++ text]) := by
  obtain ⟨r, rfl⟩ := hcomments.exists_eq
  obtain ⟨earlier, later, hcalls⟩ := List.append_of_mem hc
  have hmem := hcomments.mem_bodyTexts (Sheet.performAll { baseImports := t.baseImports } earlier)
  have hshown : '/' :: '/' :: r ∈ (Sheet.performAll { baseImports := t.baseImports } t.calls).bodyTexts := by
    rw [hcalls, Sheet.performAll_append, Sheet.performAll_cons]
    exact (Sheet.bodyTexts_sublist_performAll _ later).subset hmem
  obtain ⟨before, depth, after, hlines⟩ := exists_lines_render hshown (List.cons_ne_nil _ _)
  obtain ⟨first, rest, htext, hcontributed⟩ := contributed_slashes depth r
  refine ⟨before, depth, after, (Task.run_code h).symm ▸ hlines, ?_, fun hone => ?_⟩
  · rw [htext, hcontributed, List.forall_mem_cons]
    exact and_iff_right (isCommentLine_slashes _ _)
  · have hsame := Sheet.lines_append_newline hone []
    rw [hcontributed]
    obtain ⟨hfirst, hrest⟩ := List.cons.inj (htext.symm.trans hsame)
    rw [hfirst, hrest]
    rfl

/-- A class with one element, whose locator holds this description as a JSON string. -/
def describedElement (description : Text) : Task where
  document := ⟨["class A \x7b", "@FindBy(locator = \"\x7b\\\"locator\\\":\\\"id=x\\\",\\\"desc\\\":\\\"" ++
    description ++ "\\\"\x7d\")", "QAFWebElement x;", "\x7d"]⟩

/-- A description on one line is one comment of the code. -/
theorem description_commented : ∃ o, (describedElement "log in").run = .ok o ∧
    Call.comment "log in" ∈ (describedElement "log in").calls ∧ OneLine "// log in" ∧
    ∃ depth, List.replicate (2 * depth) ' ' ++ ("// log in" : Text) ∈ lines o.code := by
  have hs := (describedElement "log in").surroundings_of_sorted (by decide +kernel)
  obtain ⟨w, hw, hcalls⟩ : ∃ w, (describedElement "log in").walk = .ok w ∧
      Call.comment "log in" ∈ (describedElement "log in").calls := by
    rw [Task.calls, Task.walk, hs]
    exact exists_of_any_toOption (by decide +kernel)
  obtain ⟨o, ho⟩ : ∃ o, (describedElement "log in").run = .ok o := by
    rw [Task.run, hw]
    exact ⟨_, rfl⟩
  have hone : OneLine "// log in" := @of_decide_eq_true _ (decidableOneLine _) rfl
  obtain ⟨earlier, depth, later, hlines, -, hline⟩ := decoded_text_commented_iff ho hcalls (.description "log in")
  refine ⟨o, ho, hcalls, hone, depth, ?_⟩
  rw [hlines, hline hone]
  simp

/-- A description with an escaped line end: what stands behind it is a line of code. -/
theorem description_breaks_out : ∃ o, (describedElement "a\\nalert(1);").run = .ok o ∧
    Call.comment "a\nalert(1);" ∈ (describedElement "a\\nalert(1);").calls ∧
    ("alert(1);" : Text) ∈ lines o.code ∧ ¬IsCommentLine "alert(1);" := by
  have hs := (describedElement "a\\nalert(1);").surroundings_of_sorted (by decide +kernel)
  obtain ⟨w, hw, hcalls, hline⟩ : ∃ w, (describedElement "a\\nalert(1);").walk = .ok w ∧
      Call.comment "a\nalert(1);" ∈ (describedElement "a\\nalert(1);").calls ∧
      ("alert(1);" : Text) ∈ lines (Task.finishedSheet w).render := by
    rw [Task.calls, Task.walk, hs]
    exact exists_of_any_toOption (by decide +kernel)
  obtain ⟨o, ho, hcode⟩ : ∃ o, (describedElement "a\\nalert(1);").run = .ok o ∧
      o.code = (Task.finishedSheet w).render := by
    rw [Task.run, hw]
    exact ⟨_, rfl, rfl⟩
  exact ⟨o, ho, hcalls, hcode ▸ hline, by decide⟩

end Restage.Conversion
