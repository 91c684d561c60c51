import Mathlib.Data.List.Flatten
import Restage.Proofs.Java.OneLine
import Restage.Proofs.TypeScript.Accounting

/-!
# Lines that are shown

Once a line is on a sheet it stays there: calls write at the end or put lines in, so the lines of
the body are found again, in their order, after any calls.  Rendering joins the lines into one text,
which a reader cuts at every line end.  A line that holds none itself is found there as a line of
its own, whatever the others hold (`Sheet.sublist_lines_render`).
-/

namespace Restage.TypeScript

open Text List

/-! ## Lines of a joined text -/

lemma lines_append_line (t r : Text) : lines (t ++ '\n' :: r) = lines (t ++ ['\n']) ++ lines r := by
  obtain ⟨gap, -, hread⟩ := Tally.linesFrom_append_newline [] t
  have hnil : lines [] = [] := rfl
  rw [lines, lines, hread, hread, hnil, append_nil]

variable {ts : List Text} {s : Sheet}

lemma join_append_newline (h : ts ≠ []) : join "\n" ts ++ "\n" = ts.flatMap (· ++ ['\n']) := by
  induction ts with
  | nil => exact absurd rfl h
  | cons t ts ih =>
    cases ts with
    | nil => simp [join]
    | cons u us =>
      have hrest := ih (by simp)
      rw [flatMap_cons, ← hrest]
      simp [join]

/-- **The lines of a joined text** are those of its parts, one part after the other. -/
lemma lines_joined (h : ts ≠ []) :
    lines (join "\n" ts ++ "\n") = ts.flatMap fun t => lines (t ++ ['\n']) := by
  have hflat : ∀ ts : List Text, lines (ts.flatMap (· ++ ['\n'])) = ts.flatMap fun t => lines (t ++ ['\n']) := by
    intro ts
    induction ts with
    | nil => rfl
    | cons t ts ih =>
      rw [flatMap_cons, append_assoc, singleton_append, lines_append_line, ih, flatMap_cons]
  rw [join_append_newline h, hflat]

lemma sublist_lines_join {us : List Text} (h : us.Sublist ts) (hus : ∀ u ∈ us, OneLine u) :
    us.Sublist (lines (join "\n" ts ++ "\n")) := by
  by_cases hts : ts = []
  · subst hts
    rw [sublist_nil.1 h]
    exact nil_sublist _
  · have hlines : us.flatMap (fun t => lines (t ++ ['\n'])) = us := by
      rw [flatMap_congr fun u hu => Sheet.lines_append_newline (hus u hu) []]
      exact flatMap_singleton' us
    rw [lines_joined hts]
    exact hlines ▸ h.flatMap _

lemma infix_join {t : Text} (sep : Text) (h : t ∈ ts) : t <:+: join sep ts := by
  induction ts with
  | nil => cases h
  | cons u us ih =>
    cases us with
    | nil =>
      simp [join, mem_singleton.1 h]
    | cons v vs =>
      rw [join, intercalate_cons_cons]
      rcases mem_cons.1 h with rfl | h
      · exact ⟨[], _, by rw [nil_append, append_assoc]⟩
      · exact (ih h).trans (suffix_append _ _).isInfix

/-- The lines that a call adds at the end. -/
def Call.lines : Call → List Text
  | .emit lines => lines
  | .openScope line _ | .chain line => [line]
  | _ => []

namespace Sheet

variable {c : Call} {line : Text}

/-! ## Lines stay -/

lemma body_sublist_insertLines (depth : Nat) (body : List Line) (position : Int) (lines : List Text) :
    body.Sublist (insertLines depth body position lines) := by
  induction lines generalizing body position with
  | nil => exact Sublist.refl body
  | cons line lines ih =>
    have hline : body.Sublist (insertLine body position ⟨depth, line⟩) := by
      rw [insertLine]
      generalize (if position < 0 then (position + body.length).toNat else position.toNat) = i
      conv_lhs => rw [← take_append_drop i body]
      exact (Sublist.refl _).append (sublist_cons_self _ _)
    exact hline.trans (ih _ _)

lemma bodyTexts_sublist_perform (s : Sheet) (c : Call) :
    s.bodyTexts.Sublist (s.perform c).bodyTexts := by
  by_cases hc : ∀ position lines, c ≠ .insert position lines
  · exact (s.bodyTexts_prefix_perform hc).sublist
  · push Not at hc
    obtain ⟨position, lines, rfl⟩ := hc
    rw [perform, insert?]
    cases s.depthAt? position with
    | none => exact Sublist.refl _
    | some depth => exact (body_sublist_insertLines depth s.body position lines).map Line.text

lemma bodyTexts_sublist_performAll (s : Sheet) (calls : List Call) :
    s.bodyTexts.Sublist (s.performAll calls).bodyTexts := by
  induction calls generalizing s with
  | nil => exact Sublist.refl _
  | cons c calls ih => exact (s.bodyTexts_sublist_perform c).trans (ih _)

lemma mem_bodyTexts_perform (s : Sheet) (h : line ∈ c.lines) :
    line ∈ (s.perform c).bodyTexts := by
  have hlast : ∀ sheet : Sheet, line ∈ (sheet.emit line).bodyTexts := by
    intro sheet
    have hbody : (sheet.emit line).bodyTexts = sheet.bodyTexts ++ [line] := sheet.bodyTexts_emitAll [line]
    rw [hbody]
    exact mem_append_right _ mem_cons_self
  cases c with
  | emit lines =>
    rw [perform, bodyTexts_emitAll]
    exact mem_append_right _ h
  | openScope opening closer =>
    rw [← mem_singleton.1 h]
    exact hlast s
  | chain opening =>
    rw [← mem_singleton.1 h, perform, chain]
    split
    · exact hlast s
    · exact hlast _
  | _ => cases h

lemma mem_bodyTexts_performAll (s : Sheet) {calls : List Call} (hc : c ∈ calls) (h : line ∈ c.lines) : line ∈ (s.performAll calls).bodyTexts := by
  obtain ⟨earlier, later, rfl⟩ := append_of_mem hc
  rw [performAll_append]
  exact (bodyTexts_sublist_performAll _ later).subset (mem_bodyTexts_perform _ h)

/-! ## Rendered lines -/

lemma sublist_dropEmptyEnd {ls body : List Line} (h : ls.Sublist body)
    (hls : ∀ l ∈ ls, l.text ≠ []) : ls.Sublist (dropEmptyEnd body) := by
  have hkept : ls.filter (fun l : Line => !l.text.isEmpty) = ls :=
    filter_eq_self.2 fun l hl => by simpa using hls l hl
  have hbody : body.filter (fun l => !l.text.isEmpty) =
      (dropEmptyEnd body).filter fun l => !l.text.isEmpty := by
    have hsplit := takeWhile_append_dropWhile (p := fun l : Line => l.text.isEmpty) (l := body.reverse)
    have hempty : (body.reverse.takeWhile fun l : Line => l.text.isEmpty).reverse.filter
        (fun l => !l.text.isEmpty) = [] := by
      rw [filter_eq_nil_iff]
      intro l hl
      have := mem_takeWhile_imp (mem_reverse.1 hl)
      simpa using this
    rw [dropEmptyEnd]
    conv_lhs => rw [← reverse_reverse body, ← hsplit, reverse_append, filter_append, hempty, append_nil]
  rw [← hkept]
  exact (hbody ▸ h.filter fun l : Line => !l.text.isEmpty).trans filter_sublist

lemma infix_render (h : line ∈ s.bodyTexts) (hne : line ≠ []) : line <:+: s.render := by
  obtain ⟨l, hl, rfl⟩ := mem_map.1 h
  have hkept : l ∈ dropEmptyEnd s.body :=
    singleton_sublist.1 (sublist_dropEmptyEnd (singleton_sublist.2 hl) (by simpa using hne))
  have hindented : indented l ∈ s.header ++ s.closedBody.map indented :=
    mem_append_right _ (mem_map_of_mem (mem_append_left _ hkept))
  have hline : l.text <:+: indented l := by
    rw [indented, if_neg (by simpa using hne)]
    exact (suffix_append _ _).isInfix
  exact (hline.trans (infix_join "\n" hindented)).trans (prefix_append _ _).isInfix

lemma trimLeft_indented {l : Line} {c : Char} {r : Text} (h : l.text = c :: r)
    (hc : isBlank c = false) : trimLeft (indented l) = l.text := by
  have hblanks : ∀ n, trimLeft (replicate n ' ' ++ c :: r) = c :: r := by
    intro n
    induction n with
    | zero => simp [trimLeft, hc]
    | succ n ih => exact ih
  rw [indented, h]
  exact hblanks _

/-- **Lines of the body** that hold no line ends and start with something are lines of the rendered
text, in their order and with their indentation. -/
lemma sublist_lines_render (h : ts.Sublist s.bodyTexts) (hline : ∀ t ∈ ts, OneLine t)
    (hstart : ∀ t ∈ ts, ∃ c r, t = c :: r ∧ isBlank c = false) :
    ts.Sublist ((lines s.render).map trimLeft) := by
  obtain ⟨ls, hls, rfl⟩ := sublist_map_iff.1 h
  have htrim : (ls.map indented).map trimLeft = ls.map Line.text := by
    rw [map_map]
    refine map_congr_left fun l hl => ?_
    obtain ⟨c, r, htext, hc⟩ := hstart l.text (mem_map_of_mem hl)
    exact trimLeft_indented htext hc
  have hindented : ∀ t ∈ ls.map indented, OneLine t := by
    intro t ht
    obtain ⟨l, hl, rfl⟩ := mem_map.1 ht
    rw [indented]
    split_ifs
    · simp [OneLine]
    · refine OneLine.append ?_ (hline l.text (mem_map_of_mem hl))
      intro c hc
      rw [eq_of_mem_replicate hc]
      decide
  have hclosed : ls.Sublist s.closedBody := by
    have hne : ∀ l ∈ ls, l.text ≠ [] := by
      intro l hl hnil
      obtain ⟨c, r, htext, -⟩ := hstart l.text (mem_map_of_mem hl)
      simp [hnil] at htext
    exact (sublist_dropEmptyEnd hls hne).trans (sublist_append_left _ _)
  have hshown : (ls.map indented).Sublist (s.header ++ s.closedBody.map indented) :=
    (hclosed.map indented).trans (sublist_append_right _ _)
  rw [← htrim]
  exact (sublist_lines_join hshown hindented).map trimLeft

end Sheet

end Restage.TypeScript
