import Restage.Proofs.Java.AnnotationLists
import Restage.Proofs.Java.PlainText

/-!
# Statements on one line

The text of a statement is put together from trimmed lines with blanks between them, so it holds no
line end whatever the document was.  What declarations are taken apart into keeps this: a reader
gives back characters of the text that it was handed and adds none.  The readers are followed down
to the body of a method that stands on one line with its header, since that body is converted as a
statement of its own (`signature?_parts`).
-/

namespace Restage.Text

open List

variable {a u t r : Text}

/-- Whether a text holds no line end. -/
def OneLine (t : Text) : Prop := ∀ c ∈ t, isLineEnd c = false

lemma OneLine.mono (h : OneLine t) (hu : u ⊆ t) : OneLine u := fun c hc => h c (hu hc)

lemma OneLine.append (ht : OneLine t) (hu : OneLine u) : OneLine (t ++ u) :=
  forall_mem_append.2 ⟨ht, hu⟩

lemma forall_mem_join {P : Char → Prop} {sep : Text} {parts : List Text} (hsep : ∀ c ∈ sep, P c)
    (hparts : ∀ p ∈ parts, ∀ c ∈ p, P c) : ∀ c ∈ join sep parts, P c := by
  induction parts with
  | nil => exact forall_mem_nil _
  | cons p ps ih =>
    rw [forall_mem_cons] at hparts
    cases ps with
    | nil => simpa [join] using hparts.1
    | cons q qs =>
      rw [join, intercalate_cons_cons]
      exact forall_mem_append.2 ⟨forall_mem_append.2 ⟨hparts.1, hsep⟩, ih hparts.2⟩

lemma oneLine_of_mem_lines {line : Text} (h : line ∈ lines t) : OneLine line := by
  have hread : ∀ acc u : Text, OneLine acc → ∀ l ∈ linesFrom acc u, OneLine l := by
    intro acc u
    induction acc, u using linesFrom.induct with
    | case1 acc hacc => simp [linesFrom, hacc]
    | case2 acc hacc =>
      intro h l hl
      rw [linesFrom, if_neg hacc, mem_singleton] at hl
      exact h.mono (by simp [hl])
    | case3 acc r ih =>
      intro h l hl
      rw [linesFrom, mem_cons] at hl
      rcases hl with rfl | hl
      · exact h.mono (by simp)
      · exact ih (by simp [OneLine]) l hl
    | case4 acc c r hr hc ih =>
      intro h l hl
      rw [linesFrom.eq_3 acc c r hr, if_pos hc, mem_cons] at hl
      rcases hl with rfl | hl
      · exact h.mono (by simp)
      · exact ih (by simp [OneLine]) l hl
    | case5 acc c r hr hc ih =>
      intro h l hl
      rw [linesFrom.eq_3 acc c r hr, if_neg hc] at hl
      refine ih ?_ l hl
      intro d hd
      rcases mem_cons.1 hd with rfl | hd
      · simpa using hc
      · exact h d hd
  exact hread [] t (by simp [OneLine]) line h

/-! ## Readers keep characters -/

lemma blanks_subset (t : Text) : blanks t ⊆ t := (blanks_isSuffix t).subset

lemma someBlanks?_subset (h : someBlanks? t = some r) : r ⊆ t := (someBlanks?_isSuffix h).subset

lemma literal?_subset {w : Text} (h : literal? w t = some r) : r ⊆ t := (literal?_isSuffix h).subset

lemma run?_subset {p : Char → Bool} (h : run? p t = some (a, r)) : r ⊆ t :=
  (run?_isSuffix h).subset

lemma cuts_subset {c : Char} {b : Text} (h : (a, b) ∈ cuts c t) : b ⊆ t := by
  induction t generalizing a with
  | nil => cases h
  | cons d r ih =>
    have hlater : (a, b) ∈ (cuts c r).map (fun (x : Text × Text) => (d :: x.1, x.2)) → b ⊆ d :: r := by
      intro h
      obtain ⟨⟨a', b'⟩, hmem, hpair⟩ := mem_map.1 h
      cases hpair
      exact subset_cons_of_subset d (ih hmem)
    rw [cuts] at h
    split_ifs at h
    · rcases mem_cons.1 h with hhere | hthere
      · cases hhere
        exact subset_cons_self d _
      · exact hlater hthere
    · exact hlater h

lemma lastLine?_subset (h : lastLine? t = some r) : r ⊆ t := by
  rw [lastLine?] at h
  split_ifs at h
  cases h
  exact (takeWhile_sublist _).subset

end Restage.Text

namespace Restage.Java

open Text List Option

variable {reading : Reading} {line : Text}

/-! ## The reader -/

lemma stripLineComment_subset (t : Text) : stripLineComment t ⊆ t := by
  rw [stripLineComment]
  split
  · exact Subset.trans (dropEnd_subset isBlank _) (take_subset _ t)
  · exact Subset.refl t

/-- The parts that a reading has in hand hold no line ends. -/
def Reading.OneLine : Reading → Prop
  | .idle => True
  | .code _ parts _ _ | .comment _ parts _ => ∀ p ∈ parts, Text.OneLine p

/-- Neither what the reader is in the middle of nor a statement that it has completed holds a line
end. -/
def NoLineEnds (next : Reading × Option Statement) : Prop :=
  next.1.OneLine ∧ ∀ s ∈ next.2, Text.OneLine s.text

lemma oneLine_statement {parts raw : List Text} (h : ∀ p ∈ parts, Text.OneLine p)
    (start endLine : Nat) : Text.OneLine (Reading.statement start endLine parts raw).text := by
  refine forall_mem_join ?_ fun p hp => h p (mem_of_mem_filter hp)
  intro c hc
  rw [mem_singleton.1 hc]
  decide

lemma takeCode_noLineEnds {parts : List Text} (hline : Text.OneLine line)
    (hparts : ∀ p ∈ parts, Text.OneLine p) (number : Nat) (raw : Text) (start : Nat)
    (held : List Text) (depth : Int) :
    NoLineEnds (Reading.takeCode number raw line start parts held depth) := by
  have hall : ∀ p ∈ parts ++ [stripLineComment line], Text.OneLine p := by
    intro p hp
    rcases mem_append.1 hp with hp | hp
    · exact hparts p hp
    · rw [mem_singleton.1 hp]
      exact hline.mono (stripLineComment_subset line)
  rw [Reading.takeCode]
  dsimp only
  split_ifs
  · exact ⟨hparts, by simp⟩
  · exact ⟨hall, by simp⟩
  · exact ⟨trivial, by simpa using oneLine_statement hall start number⟩
  · exact ⟨hall, by simp⟩

lemma takeComment_noLineEnds {parts : List Text} (hline : Text.OneLine line)
    (hparts : ∀ p ∈ parts, Text.OneLine p) (number : Nat) (raw : Text) (start : Nat)
    (held : List Text) :
    NoLineEnds (Reading.takeComment number raw line start parts held) := by
  have hall : ∀ p ∈ parts ++ [line], Text.OneLine p := by
    intro p hp
    rcases mem_append.1 hp with hp | hp
    · exact hparts p hp
    · rwa [mem_singleton.1 hp]
  rw [Reading.takeComment]
  split_ifs
  · exact ⟨trivial, by simpa using oneLine_statement hall start number⟩
  · exact ⟨hall, by simp⟩

lemma step_noLineEnds (h : reading.OneLine) (hline : Text.OneLine line) (number : Nat) : NoLineEnds (reading.step number line) := by
  have htrim : Text.OneLine (trim line) := hline.mono (trim_subset line)
  cases reading with
  | comment start parts raw => exact takeComment_noLineEnds htrim h ..
  | code start parts raw depth => exact takeCode_noLineEnds htrim h ..
  | idle =>
    simp only [Reading.step]
    split_ifs
    · exact ⟨trivial, by simp⟩
    · exact ⟨trivial, by simpa using htrim⟩
    · exact takeComment_noLineEnds htrim (by simp) ..
    · exact takeCode_noLineEnds htrim (by simp) ..

lemma statements_oneLine {lines : List Text} (h : reading.OneLine)
    (hlines : ∀ line ∈ lines, Text.OneLine line) (number : Nat) :
    ∀ s ∈ reading.statements number lines, Text.OneLine s.text := by
  induction lines generalizing reading number with
  | nil =>
    intro s hs
    cases reading with
    | idle => cases hs
    | code start parts raw depth =>
      rw [mem_singleton.1 hs]
      exact oneLine_statement h _ _
    | comment start parts raw =>
      rw [mem_singleton.1 hs]
      exact oneLine_statement h _ _
  | cons line rest ih =>
    intro s hs
    obtain ⟨hnext, hdone⟩ := step_noLineEnds h (hlines line (by simp)) number
    rcases mem_append.1 hs with hs | hs
    · exact hdone s (mem_toList.1 hs)
    · exact ih hnext (fun l hl => hlines l (by simp [hl])) _ s hs

/-- **The statements of a source text** hold no line ends. -/
lemma oneLine_of_mem_statements {source : Text} {s : Statement}
    (h : s ∈ (Document.ofText source).statements) : Text.OneLine s.text := by
  have hidle : Reading.idle.OneLine := trivial
  exact statements_oneLine hidle (fun _ hline => oneLine_of_mem_lines hline) 1 s h

/-! ## Declarations -/

variable {t : Text} {sig : Signature} {r e : Text}

lemma leadingAnnotation?_subset {a : Text} (h : leadingAnnotation? t = some (a, r)) : r ⊆ t := by
  rcases leadingAnnotation?_cases t with ⟨hnone, -⟩ | ⟨x, y, rfl, -, hsome⟩
  · rw [hnone] at h
    cases h
  · cases h.symm.trans hsome
    exact Subset.trans (trim_subset y) (subset_append_right x y)

lemma splitAnnotations_subset (t : Text) : (splitAnnotations t).2 ⊆ t := by
  have hfrom : ∀ u : Text, (splitAnnotationsFrom u).2 ⊆ u := by
    intro u
    induction u using splitAnnotationsFrom.induct with
    | case1 u h =>
      rw [splitAnnotationsFrom_of_none h]
      exact Subset.refl u
    | case2 u first rest h more declaration _ ih =>
      rw [splitAnnotationsFrom_of_some h]
      exact Subset.trans ih (leadingAnnotation?_subset h)
  exact Subset.trans (hfrom (trim t)) (trim_subset t)

lemma modifierEnds_subset {choices : List Text} (h : r ∈ modifierEnds choices t) : r ⊆ t := by
  have hcount : ∀ (n : Nat) (u : Text), r ∈ modifierEndsUpTo choices n u → r ⊆ u := by
    intro n
    induction n with
    | zero =>
      intro u hr
      rw [mem_singleton.1 hr]
      exact Subset.refl u
    | succ n ih =>
      intro u hr
      rw [modifierEndsUpTo] at hr
      split at hr
      · rename_i rest hrest
        obtain ⟨⟨word, after⟩, hword, hblanks⟩ := bind_eq_some_iff.1 hrest
        obtain ⟨w, -, hw⟩ := exists_of_findSome?_eq_some hword
        obtain ⟨after', hliteral, hpair⟩ := map_eq_some_iff.1 hw
        cases hpair
        rcases mem_append.1 hr with hr | hr
        · calc r ⊆ rest := ih rest hr
            _ ⊆ after := someBlanks?_subset hblanks
            _ ⊆ u := literal?_subset hliteral
        · rw [mem_singleton.1 hr]
          exact Subset.refl u
      · rw [mem_singleton.1 hr]
        exact Subset.refl u
  exact hcount _ t h

lemma typeParameters_subset (t : Text) : typeParameters t ⊆ t := by
  unfold typeParameters
  split
  · rename_i r
    split
    · rename_i c rest hrest
      split_ifs
      · exact Subset.refl _
      · have hsub : rest ⊆ '<' :: r := by
          have hdrop : c :: rest ⊆ r := hrest ▸ (dropWhile_sublist _).subset
          exact subset_cons_of_subset _ (Subset.trans (subset_cons_self c rest) hdrop)
        cases hblanks : someBlanks? rest with
        | none => exact Subset.refl _
        | some after => exact Subset.trans (someBlanks?_subset hblanks) hsub
    · exact Subset.refl _
  · exact Subset.refl _

lemma throwsClause_subset (t : Text) : throwsClause t ⊆ t := by
  unfold throwsClause
  split
  · rename_i c d r rest hclause
    obtain ⟨after, hliteral, hrun⟩ := bind_eq_some_iff.1 hclause
    split_ifs
    · calc rest ⊆ after := run?_subset hrun
        _ ⊆ blanks t := literal?_subset hliteral
        _ ⊆ t := blanks_subset t
    · exact blanks_subset t
  · exact blanks_subset t

lemma bodyEnding?_subset (h : bodyEnding? t = some e) : e ⊆ t := by
  unfold bodyEnding? at h
  split at h
  · obtain ⟨r, hr, rfl⟩ := map_eq_some_iff.1 h
    exact cons_subset_cons _ (lastLine?_subset hr)
  · cases h

lemma methodEnding?_subset (h : methodEnding? t = some e) : e ⊆ t := by
  unfold methodEnding? at h
  split at h
  · split_ifs at h
    cases h
    exact cons_subset_cons _ (nil_subset _)
  · exact bodyEnding?_subset h

lemma nameAndParameters?_parts {ending? : Text → Option Text} (hending : ∀ u e, ending? u = some e → e ⊆ u)
    {name params : Text} (h : nameAndParameters? ending? t = some (name, params, e)) :
    isWordText name = true ∧ e ⊆ t := by
  obtain ⟨⟨name, r⟩, hname, h⟩ := bind_eq_some_iff.1 h
  obtain ⟨list, hlist, h⟩ := bind_eq_some_iff.1 h
  obtain ⟨⟨params', e'⟩, hparams, h⟩ := bind_eq_some_iff.1 h
  cases h
  obtain ⟨⟨before, rest⟩, hcut, hfound⟩ := exists_of_findSome?_eq_some hparams
  dsimp only at hfound
  split_ifs at hfound
  obtain ⟨e'', he, hpair⟩ := map_eq_some_iff.1 hfound
  cases hpair
  have hrest : rest ⊆ list := cuts_subset (mem_reverse.1 hcut)
  refine ⟨isWordText_of_word? hname, ?_⟩
  calc e ⊆ throwsClause rest := hending _ _ he
    _ ⊆ rest := throwsClause_subset rest
    _ ⊆ list := hrest
    _ ⊆ blanks r := literal?_subset hlist
    _ ⊆ r := blanks_subset r
    _ ⊆ t := run?_subset hname

lemma methodShape?_parts (h : methodShape? t = some sig) : isWordText sig.name = true ∧ sig.ending ⊆ t := by
  obtain ⟨start, hstart, h⟩ := exists_of_findSome?_eq_some h
  obtain ⟨rest, hrest, h⟩ := exists_of_findSome?_eq_some h
  obtain ⟨⟨name, params, e⟩, hparts, h⟩ := bind_eq_some_iff.1 h
  obtain ⟨after, hblanks, hparts⟩ := bind_eq_some_iff.1 hparts
  cases h
  obtain ⟨hname, hending⟩ := nameAndParameters?_parts (fun _ _ => methodEnding?_subset) hparts
  refine ⟨hname, ?_⟩
  calc e ⊆ after := hending
    _ ⊆ rest := someBlanks?_subset hblanks
    _ ⊆ typeParameters start := (Skips.typeEnds hrest).suffix.subset
    _ ⊆ start := typeParameters_subset start
    _ ⊆ t := modifierEnds_subset hstart

lemma constructorShape?_parts (h : constructorShape? t = some sig) :
    isWordText sig.name = true ∧ sig.ending ⊆ t := by
  obtain ⟨start, hstart, h⟩ := exists_of_findSome?_eq_some h
  obtain ⟨⟨name, params, e⟩, hparts, h⟩ := bind_eq_some_iff.1 h
  cases h
  obtain ⟨hname, hending⟩ := nameAndParameters?_parts (fun _ _ => bodyEnding?_subset) hparts
  exact ⟨hname, Subset.trans hending (modifierEnds_subset hstart)⟩

/-- **A method declaration** has a word for its name, and its end, with a body on the same line, is
part of the text. -/
lemma signature?_parts {className : Option Text} (h : signature? className t = some sig) :
    isWordText sig.name = true ∧ sig.ending ⊆ t := by
  have hmethod : method? t = some sig → isWordText sig.name = true ∧ sig.ending ⊆ t := fun h =>
    methodShape?_parts (eq_some_of_filter_eq_some h)
  unfold signature? at h
  split at h
  · exact hmethod h
  · rcases or_eq_some_iff.1 h with h | ⟨-, h⟩
    · exact constructorShape?_parts (eq_some_of_filter_eq_some h)
    · exact hmethod h

end Restage.Java
