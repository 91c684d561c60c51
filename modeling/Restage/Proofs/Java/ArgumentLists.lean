import Restage.Java.Arguments
import Restage.Proofs.Java.StatementLines
import Restage.Proofs.Text.Masks

/-!
# Splitting and joining arguments

The splitter reads the mask of the whole text and counts brackets along the way.  Both start afresh
at every comma where it cuts: the comma stands in code, and no bracket is open there.  So what
stands between two such commas is read as if it stood alone, also in a text with stray brackets or
an open literal (`exists_pieces`), and texts that are one argument each are read back when they are
joined (`cutArguments_join`).
-/

namespace Restage.Java

open Text List

variable {a b m part t x y : Text} {depth : Int}

/-! ## Depth and cuts -/

/-- How many more brackets a text opens than it closes. -/
def bracketDepth (m : Text) : Int := (m.countP isOpening : Int) - m.countP isClosing

lemma bracketDepth_append (a b : Text) : bracketDepth (a ++ b) = bracketDepth a + bracketDepth b := by
  simp only [bracketDepth, countP_append]
  omega

/-- A masked text has no comma outside of all brackets. -/
def Uncut (depth : Int) (m : Text) : Prop := ∀ a b, m = a ++ ',' :: b → depth + bracketDepth a ≠ 0

lemma uncut_of_notMem (h : ',' ∉ m) : Uncut depth m := by
  rintro a b rfl
  exact absurd (by simp) h

lemma Uncut.of_append (h : Uncut depth (a ++ (m ++ b))) : Uncut (depth + bracketDepth a) m := by
  rintro c d rfl
  have hcut := h (a ++ c) (d ++ b) (by simp)
  rwa [bracketDepth_append, ← Int.add_assoc] at hcut

lemma exists_first_cut (h : ¬Uncut 0 m) : ∃ a b, m = a ++ ',' :: b ∧ bracketDepth a = 0 ∧ Uncut 0 a := by
  induction hlength : m.length using Nat.strong_induction_on generalizing m with
  | _ n ih =>
    simp only [Uncut, not_forall, Decidable.not_not, Int.zero_add] at h
    obtain ⟨a, b, rfl, hdepth⟩ := h
    -- The comma that was found need not be the first one; a cut before it is in a shorter text.
    by_cases ha : Uncut 0 a
    · exact ⟨a, b, rfl, hdepth, ha⟩
    · obtain ⟨c, d, rfl, hfirst⟩ := ih _ (by simp [← hlength]) ha rfl
      exact ⟨c, d ++ ',' :: b, by simp, hfirst⟩

/-- **One step** of the splitter: it cuts, or it counts a bracket. -/
lemma splitArgumentsFrom_cons (depth : Int) (part : Text) (shown c : Char) (r : List (Char × Char)) :
    splitArgumentsFrom depth part ((shown, c) :: r) =
      if shown = ',' ∧ depth = 0 then trim part.reverse :: splitArgumentsFrom 0 [] r
      else splitArgumentsFrom (depth + bracketDepth [shown]) (c :: part) r := by
  have hboth : isOpening shown = true → isClosing shown = false ∧ shown ≠ ',' := by
    simp only [isOpening, Bool.or_eq_true, beq_iff_eq]
    rintro ((rfl | rfl) | rfl) <;> decide
  have hcomma : isClosing shown = true → shown ≠ ',' := by
    rintro h rfl
    cases h
  rw [splitArgumentsFrom, bracketDepth]
  split_ifs <;> simp_all [Int.sub_eq_add_neg]

lemma splitArgumentsFrom_ne_nil (depth : Int) (part : Text) (r : List (Char × Char)) :
    splitArgumentsFrom depth part r ≠ [] := by
  fun_induction splitArgumentsFrom depth part r <;> simp_all

lemma splitArgumentsFrom_append {p : List (Char × Char)} (h : Uncut depth (p.map (·.1))) (part : Text)
    (q : List (Char × Char)) : splitArgumentsFrom depth part (p ++ q) =
      splitArgumentsFrom (depth + bracketDepth (p.map (·.1))) ((p.map (·.2)).reverse ++ part) q := by
  induction p generalizing depth part with
  | nil => simp [bracketDepth]
  | cons pair p ih =>
    obtain ⟨shown, c⟩ := pair
    have hstep : ¬(shown = ',' ∧ depth = 0) := by
      rintro ⟨rfl, rfl⟩
      exact h [] (p.map (·.1)) rfl rfl
    have hrest : Uncut (depth + bracketDepth [shown]) (p.map (·.1)) := by
      refine Uncut.of_append (b := []) ?_
      rwa [append_nil]
    rw [cons_append, splitArgumentsFrom_cons, if_neg hstep, ih hrest, Int.add_assoc, ← bracketDepth_append]
    simp

/-! ## Reading a text -/

/-- The parts of a text between the commas outside of all brackets. -/
def cutArguments (t : Text) : List Text := splitArgumentsFrom 0 [] ((mask t).zip t)

lemma cutArguments_of_uncut (h : Uncut 0 (mask t)) : cutArguments t = [trim t] := by
  have hlength := length_mask t
  have hread := splitArgumentsFrom_append (p := (mask t).zip t) (by rwa [map_fst_zip hlength.le]) [] []
  rw [append_nil, map_snd_zip hlength.ge, append_nil] at hread
  rw [cutArguments, hread, splitArgumentsFrom, reverse_reverse]

/-- **At a cut** the splitter starts afresh. -/
lemma cutArguments_append_comma (hcode : Quoting.after .code x = .code) (hcut : Uncut 0 (mask x))
    (hdepth : bracketDepth (mask x) = 0) (y : Text) :
    cutArguments (x ++ ',' :: y) = trim x :: cutArguments y := by
  have hlength := length_mask x
  rw [cutArguments, mask_append_cons (by decide) hcode, zip_append hlength, zip_cons_cons,
    splitArgumentsFrom_append (by rwa [map_fst_zip hlength.le]), map_fst_zip hlength.le, hdepth,
    splitArgumentsFrom_cons, if_pos ⟨rfl, rfl⟩, map_snd_zip hlength.ge, append_nil, reverse_reverse, cutArguments]

lemma cutArguments_cases (t : Text) : Uncut 0 (mask t) ∨ ∃ x y, t = x ++ ',' :: y ∧
    Uncut 0 (mask x) ∧ cutArguments t = trim x :: cutArguments y := by
  by_cases h : Uncut 0 (mask t)
  · exact .inl h
  · obtain ⟨a, b, hmask, hdepth, hcut⟩ := exists_first_cut h
    obtain ⟨x, y, rfl, hcode, rfl, -⟩ := exists_of_mask_eq (by decide) (by decide) hmask
    exact .inr ⟨x, y, rfl, hcut, cutArguments_append_comma hcode hcut hdepth y⟩

/-- **A text is its parts**, with blanks around them and commas between them. -/
lemma exists_pieces (t : Text) : ∃ pieces, t = join "," pieces ∧ cutArguments t = pieces.map trim ∧
    ∀ x ∈ pieces, Uncut 0 (mask x) := by
  induction hlength : t.length using Nat.strong_induction_on generalizing t with
  | _ n ih =>
    rcases cutArguments_cases t with hcut | ⟨x, y, rfl, hcut, hread⟩
    · exact ⟨[t], by simp [join], cutArguments_of_uncut hcut, forall_mem_singleton.2 hcut⟩
    · obtain ⟨pieces, hjoin, htrim, hpieces⟩ := ih _ (by simp [← hlength]; omega) y rfl
      refine ⟨x :: pieces, ?_, by rw [hread, htrim, map_cons], forall_mem_cons.2 ⟨hcut, hpieces⟩⟩
      cases pieces with
      | nil => exact absurd htrim (splitArgumentsFrom_ne_nil _ _ _)
      | cons p ps => simp [hjoin, join]

/-! ## Blanks -/

lemma isBlank_plain {c : Char} (h : isBlank c = true) :
    isQuote c = false ∧ isOpening c = false ∧ isClosing c = false := by
  refine ⟨?_, ?_, ?_⟩ <;>
  · by_contra hc
    simp only [Bool.not_eq_false, isQuote, isOpening, isClosing, Bool.or_eq_true, beq_iff_eq] at hc
    rcases hc with (rfl | rfl) | rfl <;> exact absurd h (by decide)

lemma Uncut.trim (h : Uncut 0 (mask x)) : Uncut 0 (mask (trim x)) := by
  obtain ⟨lead, trail, hx, hlead⟩ : ∃ lead trail, x = lead ++ (Text.trim x ++ trail) ∧
      ∀ c ∈ lead, isBlank c = true := by
    obtain ⟨trail, htrail⟩ : Text.trim x <+: trimLeft x := rdropWhile_prefix isBlank _
    exact ⟨x.takeWhile isBlank, trail, by rw [htrail, trimLeft, takeWhile_append_dropWhile],
      fun c hc => mem_takeWhile_imp hc⟩
  have hquote : ∀ c ∈ lead, isQuote c = false := fun c hc => (isBlank_plain (hlead c hc)).1
  have hdepth : bracketDepth lead = 0 := by
    rw [bracketDepth, countP_eq_zero.2 fun c hc => by simp [(isBlank_plain (hlead c hc)).2.1],
      countP_eq_zero.2 fun c hc => by simp [(isBlank_plain (hlead c hc)).2.2]]
    rfl
  -- The blanks at the end may stand in an open literal, so nothing is said about their mask.
  have hmask : mask (Text.trim x ++ trail) = mask (Text.trim x) ++ _ := maskFrom_append .code _ trail
  rw [hx, mask_append (after_of_forall hquote), mask_of_forall hquote, hmask] at h
  simpa [hdepth] using h.of_append

lemma splitArguments_of_trim (h : trim t = t) (hne : t ≠ []) (u : Text) :
    splitArguments (t ++ u) = cutArguments (t ++ u) := by
  obtain ⟨c, r, rfl⟩ := exists_cons_of_ne_nil hne
  refine if_neg ?_
  simp [allBlank, isBlank_head_of_trim h]

lemma splitArgumentsFrom_concat_blank (depth : Int) (part : Text) (r : List (Char × Char)) :
    splitArgumentsFrom depth (part ++ [' ']) r = splitArgumentsFrom depth part r := by
  induction r generalizing depth part with
  | nil => simp [splitArgumentsFrom, trim_cons_blank]
  | cons pair r ih =>
    rw [splitArgumentsFrom_cons, splitArgumentsFrom_cons, ← cons_append, ih]
    simp [trim_cons_blank]

lemma cutArguments_cons_blank (t : Text) : cutArguments (' ' :: t) = cutArguments t := by
  have hread := splitArgumentsFrom_concat_blank 0 [] ((mask t).zip t)
  exact (splitArgumentsFrom_cons 0 [] ' ' ' ' _).trans hread

/-! ## Joined arguments -/

/-- A text that is one argument. -/
structure IsArgument (p : Text) : Prop where
  ne_nil : p ≠ []
  trimmed : trim p = p
  closed : Quoting.after .code p = .code
  level : bracketDepth (mask p) = 0
  single : splitArguments p = [p]

lemma IsArgument.uncut {p : Text} (h : IsArgument p) : Uncut 0 (mask p) := by
  rcases cutArguments_cases p with hcut | ⟨x, y, -, -, hread⟩
  · exact hcut
  · have hsingle := splitArguments_of_trim h.trimmed h.ne_nil []
    rw [append_nil, h.single, hread] at hsingle
    exact absurd (cons.inj hsingle).2.symm (splitArgumentsFrom_ne_nil _ _ _)

lemma cutArguments_join {ps : List Text} (hne : ps ≠ []) (h : ∀ p ∈ ps, IsArgument p) :
    cutArguments (join ", " ps) = ps := by
  induction ps with
  | nil => exact absurd rfl hne
  | cons p ps ih =>
    rw [forall_mem_cons] at h
    cases ps with
    | nil =>
      have hjoin : join ", " [p] = p := by simp [join]
      rw [hjoin, cutArguments_of_uncut h.1.uncut, h.1.trimmed]
    | cons q ps =>
      have hjoin : join ", " (p :: q :: ps) = p ++ ',' :: ' ' :: join ", " (q :: ps) := by simp [join]
      rw [hjoin, cutArguments_append_comma h.1.closed h.1.uncut h.1.level, cutArguments_cons_blank,
        ih (cons_ne_nil _ _) h.2, h.1.trimmed]

/-- **Splitting and joining arguments** are inverse to each other.  Arguments that are joined are
read back.  Every text is what is read from it joined with commas, up to blanks around the parts,
and what is read from it is one argument each. -/
theorem arguments_split_and_join :
    (∀ ps, ps ≠ [] → (∀ p ∈ ps, IsArgument p) → splitArguments (join ", " ps) = ps) ∧
      ∀ t, (∀ p ∈ splitArguments t, p ≠ [] → splitArguments p = [p]) ∧
        ((allBlank t = true ∧ splitArguments t = []) ∨
          ∃ pieces, t = join "," pieces ∧ splitArguments t = pieces.map trim) := by
  refine ⟨fun ps hne h => ?_, fun t => ?_⟩
  · obtain ⟨p, rest, rfl⟩ := exists_cons_of_ne_nil hne
    obtain ⟨u, hu⟩ : ∃ u, join ", " (p :: rest) = p ++ u := by
      cases rest <;> simp [join]
    have hp := h p mem_cons_self
    have hread := cutArguments_join hne h
    rw [hu] at hread ⊢
    rw [splitArguments_of_trim hp.trimmed hp.ne_nil, hread]
  · obtain ⟨pieces, hjoin, hread, hcut⟩ := exists_pieces t
    by_cases hblank : allBlank t = true
    · have hnone : splitArguments t = [] := if_pos hblank
      exact ⟨by simp [hnone], .inl ⟨hblank, hnone⟩⟩
    · have hsplit : splitArguments t = pieces.map trim := (if_neg hblank).trans hread
      refine ⟨?_, .inr ⟨pieces, hjoin, hsplit⟩⟩
      rw [hsplit, forall_mem_map]
      intro x hx hne
      have hsingle := splitArguments_of_trim (trim_trim x) hne []
      rw [append_nil, cutArguments_of_uncut (hcut x hx).trim, trim_trim] at hsingle
      exact hsingle

/-- Commas in a call and in a literal. -/
theorem arguments_split_and_join_nested :
    (∀ p ∈ (["f(a, b)", "\"), c\""] : List Text), IsArgument p) ∧
      splitArguments "f(a, b), \"), c\"" = ["f(a, b)", "\"), c\""] := by
  have hargument : ∀ p ∈ (["f(a, b)", "\"), c\""] : List Text), IsArgument p := by
    intro p hp
    simp only [mem_cons, not_mem_nil, or_false] at hp
    rcases hp with rfl | rfl <;> exact ⟨by decide, by decide, by decide, by decide, by decide⟩
  exact ⟨hargument, arguments_split_and_join.1 _ (by simp) hargument⟩

end Restage.Java
