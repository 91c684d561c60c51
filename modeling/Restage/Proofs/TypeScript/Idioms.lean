import Restage.Proofs.Text.Readers
import Restage.Proofs.Text.Scanning
import Restage.Proofs.TypeScript.LiteralDecoding

/-!
# Concatenation idioms

The pieces of a value are found by a scan for concatenation idioms, a quote, a plus sign, a name and
either a plus sign and the same quote or the end.  This module says which texts are idioms
(`idiom?_eq_some_iff`) and gives the scan as a recursion on what it has not read yet
(`pieces_of_none`, `pieces_link`, `pieces_addend`), with the induction that goes with it.

From that it derives when a value may be put together from two parts.  Pieces are joined by `weld`,
which makes one text of two that meet, and the pieces of a concatenation are those of its parts
welded together unless the seam makes a difference: an idiom that ended with the first part
(`endsOpen`), or one that the second part completes (`pieces_append_cons`).
-/

namespace Restage.TypeScript

open Text List Option

/-! ## The texts that are idioms -/

/-- Whether a character may open a concatenation idiom. -/
def isIdiomQuote (c : Char) : Bool := c == '"' || c == '\x27'

/-- Whether a character may stand between the quotes of an idiom. -/
def isAddendChar (c : Char) : Bool := isBlank c || c == '+' || isWord c

/-- A plus sign and a name, with blanks around them: what follows the quote of an idiom at the end
of a value. -/
def IsAddend (name t : Text) : Prop :=
  ∃ g₁ g₂ g₃ : Text, allBlank g₁ = true ∧ allBlank g₂ = true ∧ allBlank g₃ = true ∧
    isName name = true ∧ t = g₁ ++ '+' :: (g₂ ++ (name ++ g₃))

/-- A plus sign, a name and a plus sign, with blanks around them: what stands between the quotes of
an idiom. -/
def IsLink (name t : Text) : Prop :=
  ∃ a g : Text, IsAddend name a ∧ allBlank g = true ∧ t = a ++ '+' :: g

variable {t r rest a u name : Text} {quote c d : Char} {ps : List Piece}

lemma all_isBlank (h : allBlank t = true) : ∀ c ∈ t, isBlank c = true :=
  List.all_eq_true.1 h

lemma IsAddend.all (h : IsAddend name t) : ∀ c ∈ t, isAddendChar c = true := by
  obtain ⟨g₁, g₂, g₃, h₁, h₂, h₃, hname, rfl⟩ := h
  intro c hc
  simp only [mem_append, mem_cons] at hc
  simp only [isAddendChar, Bool.or_eq_true]
  rcases hc with hc | rfl | hc | hc | hc
  · exact .inl (.inl (all_isBlank h₁ c hc))
  · exact .inl (.inr rfl)
  · exact .inl (.inl (all_isBlank h₂ c hc))
  · exact .inr (isWord_of_mem_name hname c hc)
  · exact .inl (.inl (all_isBlank h₃ c hc))

lemma IsLink.all (h : IsLink name t) : ∀ c ∈ t, isAddendChar c = true := by
  obtain ⟨a, g, ha, hg, rfl⟩ := h
  intro c hc
  simp only [mem_append, mem_cons] at hc
  rcases hc with hc | rfl | hc
  · exact ha.all c hc
  · decide
  · simp only [isAddendChar, all_isBlank hg c hc, Bool.true_or]

lemma idiomEnd?_eq_some_iff :
    idiomEnd? quote t = some rest ↔
      (∃ r, t = '+' :: r ∧ blanks r = quote :: rest) ∨ (t = [] ∧ rest = []) := by
  unfold idiomEnd?
  split
  · rename_i r
    split
    · rename_i q u hblanks
      simp [hblanks]
    · rename_i hblanks
      simp [hblanks]
  · simp [eq_comm]
  · rename_i hplus hnil
    simp only [reduceCtorEq, false_iff, not_or, not_exists, not_and]
    exact ⟨fun r hr => absurd hr (hplus r), fun h => absurd h hnil⟩

lemma idiom?_addend_append (hquote : isIdiomQuote quote = true) (ha : IsAddend name a)
    (after : Text) (hafter : ∀ c ∈ after.head?, isBlank c = false ∧ isWord c = false) :
    idiom? (quote :: (a ++ after)) = (idiomEnd? quote after).map (name, ·) := by
  obtain ⟨g₁, g₂, g₃, hg₁, hg₂, hg₃, hname, rfl⟩ := ha
  have hopens : quote = '"' ∨ quote = '\x27' := by simpa [isIdiomQuote] using hquote
  have hplus : blanks (g₁ ++ '+' :: (g₂ ++ (name ++ g₃)) ++ after) =
      "+" ++ (g₂ ++ (name ++ (g₃ ++ after))) := by
    rw [append_assoc, blanks_append hg₁]
    · simp
    · rintro _ ⟨⟩
      decide
  have hstart : blanks (g₂ ++ (name ++ (g₃ ++ after))) = name ++ (g₃ ++ after) := by
    obtain ⟨c, r, rfl, hc, -⟩ := exists_cons_of_isName hname
    refine blanks_append hg₂ ?_
    rintro _ ⟨⟩
    exact isBlank_eq_false_of_isWord (isWord_of_isNameStart hc)
  have hstop : ∀ c ∈ (g₃ ++ after).head?, isWord c = false := by
    intro c hc
    cases g₃ with
    | nil => exact (hafter c hc).2
    | cons d g =>
      obtain rfl : d = c := some.inj hc
      refine Bool.eq_false_iff.2 fun hword => ?_
      exact absurd (all_isBlank hg₃ d mem_cons_self) (by simp [isBlank_eq_false_of_isWord hword])
  have hrest : blanks (g₃ ++ after) = after := blanks_append hg₃ fun c hc => (hafter c hc).1
  rw [idiom?, if_pos hopens, hplus, literal?_append, bind_eq_bind, bind_some, hstart,
    name?_eq_some_iff.2 ⟨rfl, hname, hstop⟩]
  change (idiomEnd? quote (blanks (g₃ ++ after))).bind (fun rest => some (name, rest)) = _
  rw [hrest, map_eq_bind]
  rfl

/-- **The idioms.**  After the quote stands a link and the same quote, or an addend and nothing
more. -/
lemma idiom?_eq_some_iff :
    idiom? (quote :: t) = some (name, rest) ↔ isIdiomQuote quote = true ∧
      ((∃ l, IsLink name l ∧ t = l ++ quote :: rest) ∨ (IsAddend name t ∧ rest = [])) := by
  have hopens : isIdiomQuote quote = true ↔ quote = '"' ∨ quote = '\x27' := by
    simp [isIdiomQuote]
  constructor
  · intro h
    rw [idiom?] at h
    split_ifs at h with hquote
    refine ⟨hopens.2 hquote, ?_⟩
    obtain ⟨r₁, hplus, h⟩ := bind_eq_some_iff.1 h
    obtain ⟨⟨name', r₂⟩, hname, h⟩ := bind_eq_some_iff.1 h
    obtain ⟨r₃, hend, h⟩ := bind_eq_some_iff.1 h
    obtain ⟨rfl, rfl⟩ := Prod.mk.inj (some.inj h)
    obtain ⟨g₁, hg₁, ht, -⟩ := blanks_spec t
    obtain ⟨g₂, hg₂, hr₁, -⟩ := blanks_spec r₁
    obtain ⟨g₃, hg₃, hr₂, -⟩ := blanks_spec r₂
    rw [literal?_eq_some] at hplus
    obtain ⟨hsplit, hisName, -⟩ := name?_eq_some_iff.1 hname
    rw [hplus] at ht
    rw [hsplit] at hr₁
    rcases idiomEnd?_eq_some_iff.1 hend with ⟨r, hr, hlast⟩ | ⟨hr, rfl⟩
    · obtain ⟨g₄, hg₄, hr₃, -⟩ := blanks_spec r
      rw [hlast] at hr₃
      rw [hr] at hr₂
      refine .inl ⟨g₁ ++ '+' :: (g₂ ++ (name' ++ g₃)) ++ '+' :: g₄,
        ⟨_, g₄, ⟨g₁, g₂, g₃, hg₁, hg₂, hg₃, hisName, rfl⟩, hg₄, rfl⟩, ?_⟩
      rw [ht, hr₁, hr₂, hr₃]
      simp
    · rw [hr] at hr₂
      refine .inr ⟨⟨g₁, g₂, g₃, hg₁, hg₂, hg₃, hisName, ?_⟩, rfl⟩
      rw [ht, hr₁, hr₂]
      simp
  · rintro ⟨hquote, ⟨l, ⟨a, g, ha, hg, rfl⟩, rfl⟩ | ⟨ha, rfl⟩⟩
    · have hend : idiomEnd? quote ('+' :: (g ++ quote :: rest)) = some rest := by
        refine idiomEnd?_eq_some_iff.2 (.inl ⟨_, rfl, blanks_append hg ?_⟩)
        rintro _ ⟨⟩
        rcases hopens.1 hquote with rfl | rfl <;> decide
      rw [append_assoc, cons_append, idiom?_addend_append hquote ha _, hend, map_some]
      rintro _ ⟨⟩
      decide
    · have hread := idiom?_addend_append hquote ha [] (by simp)
      rwa [append_nil] at hread

section Idioms

variable {l : Text}

lemma idiom?_link (hquote : isIdiomQuote quote = true) (hl : IsLink name l) (rest : Text) :
    idiom? (quote :: (l ++ quote :: rest)) = some (name, rest) :=
  idiom?_eq_some_iff.2 ⟨hquote, .inl ⟨l, hl, rfl⟩⟩

lemma idiom?_addend (hquote : isIdiomQuote quote = true) (ht : IsAddend name t) :
    idiom? (quote :: t) = some (name, []) :=
  idiom?_eq_some_iff.2 ⟨hquote, .inr ⟨ht, rfl⟩⟩

lemma idiom?_eq_none_of_not_quote (hc : isIdiomQuote c = false) (t : Text) : idiom? (c :: t) = none := by
  refine eq_none_iff_forall_ne_some.2 fun found hfound => ?_
  have hquote := (idiom?_eq_some_iff.1 hfound).1
  rw [hc] at hquote
  cases hquote

lemma isIdiomQuote_of_isAddendChar (h : isAddendChar c = true) : isIdiomQuote c = false := by
  refine Bool.eq_false_iff.2 fun hquote => ?_
  simp only [isIdiomQuote, Bool.or_eq_true, beq_iff_eq] at hquote
  rcases hquote with rfl | rfl <;> exact absurd h (by decide)

end Idioms

/-! ## The scan as a recursion -/

/-- **Induction along the scan**: over idioms with both quotes, an idiom at the end, and characters
that start none. -/
lemma scan_induction {motive : Text → Prop} (nil : motive [])
    (link : ∀ quote name l rest, isIdiomQuote quote = true → IsLink name l → motive rest →
      motive (quote :: (l ++ quote :: rest)))
    (addend : ∀ quote name t, isIdiomQuote quote = true → IsAddend name t → motive (quote :: t))
    (other : ∀ c r, idiom? (c :: r) = none → motive r → motive (c :: r)) (t : Text) : motive t := by
  induction hlength : t.length using Nat.strong_induction_on generalizing t with
  | _ n ih =>
    cases t with
    | nil => exact nil
    | cons c r =>
      cases hidiom : idiom? (c :: r) with
      | none => exact other c r hidiom (ih r.length (by simp [← hlength]) r rfl)
      | some found =>
        obtain ⟨name, rest⟩ := found
        obtain ⟨hquote, ⟨l, hl, rfl⟩ | ⟨hr, -⟩⟩ := idiom?_eq_some_iff.1 hidiom
        · refine link c name l rest hquote hl (ih rest.length ?_ rest rfl)
          rw [← hlength]
          simp only [length_cons, length_append]
          omega
        · exact addend c name r hquote hr

/-- The pieces of two texts put together: where a text meets a text they become one. -/
def weld : List Piece → List Piece → List Piece
  | [.text t], .text u :: qs => .text (t ++ u) :: qs
  | [], qs => qs
  | p :: ps, qs => p :: weld ps qs

lemma weld_text (t u : Text) (qs : List Piece) :
    weld [.text t] (.text u :: qs) = .text (t ++ u) :: qs := rfl

lemma weld_slot (t name : Text) (ps qs : List Piece) :
    weld (.text t :: .slot name :: ps) qs = .text t :: .slot name :: weld ps qs := by
  rw [weld.eq_3 _ _ _ (by simp), weld.eq_3 _ _ _ (by simp)]

lemma weld_text_weld (t u : Text) (ps : List Piece) :
    weld [.text t] (weld [.text u] ps) = weld [.text (t ++ u)] ps := by
  rcases ps with _ | ⟨⟨v⟩ | ⟨name⟩, qs⟩
  · rfl
  · rw [weld_text, weld_text, weld_text, append_assoc]
  · rfl

lemma weld_text_assoc (t : Text) (ps qs : List Piece) :
    weld (weld [.text t] ps) qs = weld [.text t] (weld ps qs) := by
  rcases ps with _ | ⟨⟨u⟩ | ⟨name⟩, _ | ⟨p, ps⟩⟩
  · rfl
  · exact (weld_text_weld t u qs).symm
  · rw [weld_text, weld.eq_3 _ _ _ (by simp), weld.eq_3 _ (.text u) _ (by simp), weld_text]
  · rfl
  · rfl

lemma weld_assoc (h : Alternating ps) (qs rs : List Piece) :
    weld (weld ps qs) rs = weld ps (weld qs rs) := by
  induction h with
  | last t => exact weld_text_assoc t qs rs
  | cons t _ _ ih => rw [weld_slot, weld_slot, ih, weld_slot]

lemma alternating_weld {qs : List Piece} (hps : Alternating ps) (hqs : Alternating qs) :
    Alternating (weld ps qs) := by
  induction hps with
  | last t =>
    rcases hqs with ⟨u⟩ | ⟨u, hname, hrest⟩
    · exact .last (t ++ u)
    · exact .cons (t ++ u) hname hrest
  | cons t hname _ ih =>
    exact .cons t hname ih

lemma weld_text_inj {qs : List Piece} (hps : Alternating ps) (hqs : Alternating qs) :
    weld [.text t] ps = weld [.text t] qs ↔ ps = qs := by
  rcases hps with ⟨u⟩ | ⟨u, -, -⟩ <;> rcases hqs with ⟨v⟩ | ⟨v, -, -⟩ <;> simp [weld_text]

lemma exists_weld_text_append (t name : Text) (ps qs : List Piece) :
    ∃ rs, weld [.text t] (ps ++ .slot name :: qs) = rs ++ .slot name :: qs := by
  rcases ps with _ | ⟨⟨v⟩ | ⟨n⟩, ps⟩
  · exact ⟨[.text t], rfl⟩
  · exact ⟨.text (t ++ v) :: ps, rfl⟩
  · exact ⟨.text t :: .slot n :: ps, rfl⟩

lemma collectPieces_eq_weld (params : List Text) (text : Text) (scanned : List (Char ⊕ Text × Text)) :
    collectPieces params text scanned = weld [.text text.reverse] (collectPieces params [] scanned) := by
  induction scanned generalizing text with
  | nil => simp [collectPieces, weld_text]
  | cons item r ih =>
    rcases item with c | ⟨name, whole⟩
    · rw [collectPieces, collectPieces, ih, ih [c], weld_text_weld, reverse_cons]
      rfl
    · rw [collectPieces, collectPieces]
      split_ifs
      · simp [weld_text]
      · rw [ih, ih (whole.reverse ++ []), weld_text_weld]
        simp

lemma scan_of_none (h : idiom? (c :: r) = none) : scan idiomText? (c :: r) = .inl c :: scan idiomText? r :=
  scan_cons_of_none (by rw [idiomText?, h, map_none])

lemma scan_of_some (h : idiom? (c :: (u ++ rest)) = some (name, rest)) :
    scan idiomText? (c :: (u ++ rest)) = .inr (name, c :: u) :: scan idiomText? rest := by
  have hconsumed : consumed (c :: (u ++ rest)) rest = c :: u := consumed_append (c :: u) rest
  refine scan_append_of_some (a := c :: u) (cons_ne_nil c u) ?_
  rw [cons_append, idiomText?, h, map_some]
  dsimp only
  rw [hconsumed]

section Pieces

variable (params : List Text)

@[simp] lemma pieces_nil : pieces params [] = [.text []] := rfl

lemma exists_pieces_eq (t : Text) : ∃ u qs, pieces params t = .text u :: qs := by
  have h := pieces_alternating params t
  generalize pieces params t = ps at h
  cases h with
  | last u => exact ⟨u, [], rfl⟩
  | cons u _ _ => exact ⟨u, _, rfl⟩

lemma pieces_of_none (h : idiom? (c :: r) = none) :
    pieces params (c :: r) = weld [.text [c]] (pieces params r) := by
  rw [pieces, scan_of_none h, collectPieces, collectPieces_eq_weld]
  rfl

lemma pieces_of_some (h : idiom? (c :: (u ++ rest)) = some (name, rest)) :
    pieces params (c :: (u ++ rest)) =
      if params.contains name then .text [] :: .slot name :: pieces params rest
      else weld [.text (c :: u)] (pieces params rest) := by
  rw [pieces, scan_of_some h, collectPieces, collectPieces_eq_weld params (_ ++ _), append_nil,
    reverse_reverse]
  rfl

lemma pieces_link {name l : Text} (hquote : isIdiomQuote quote = true) (hl : IsLink name l) (rest : Text) :
    pieces params (quote :: (l ++ quote :: rest)) =
      if params.contains name then .text [] :: .slot name :: pieces params rest
      else weld [.text (quote :: (l ++ [quote]))] (pieces params rest) := by
  have hsplit : l ++ quote :: rest = (l ++ [quote]) ++ rest := by simp
  have hidiom := idiom?_link hquote hl rest
  rw [hsplit] at hidiom ⊢
  exact pieces_of_some params hidiom

lemma pieces_addend (hquote : isIdiomQuote quote = true) (ht : IsAddend name t) :
    pieces params (quote :: t) =
      if params.contains name then [.text [], .slot name, .text []] else [.text (quote :: t)] := by
  have hidiom := idiom?_addend hquote ht
  rw [← append_nil t] at hidiom ⊢
  rw [pieces_of_some params hidiom, pieces_nil, weld_text, append_nil, append_nil]

/-- Text without quotes stands for itself, whatever comes after it. -/
lemma pieces_append_of_forall (h : ∀ c ∈ a, isIdiomQuote c = false) (t : Text) :
    pieces params (a ++ t) = weld [.text a] (pieces params t) := by
  induction a with
  | nil =>
    obtain ⟨u, qs, hu⟩ := exists_pieces_eq params t
    rw [nil_append, hu, weld_text, nil_append]
  | cons c a ih =>
    rw [forall_mem_cons] at h
    rw [cons_append, pieces_of_none params (idiom?_eq_none_of_not_quote h.1 _), ih h.2, weld_text_weld]
    rfl

end Pieces

/-! ## Values in two parts -/

/-- Whether the last slot of a value stands at its end without a closing quote. -/
def endsOpen (params : List Text) (t : Text) : Bool :=
  isDynamic params t && decide ((pieces params t).getLast? = some (.text []))
    && !t.getLast?.any isIdiomQuote

section Seams

variable {params : List Text}

lemma any_isSlot_weld_text (t : Text) (ps : List Piece) :
    (weld [.text t] ps).any Piece.isSlot = ps.any Piece.isSlot := by
  rcases ps with _ | ⟨⟨v⟩ | ⟨name⟩, qs⟩ <;> rfl

lemma getLast?_weld_text (h : ps.any Piece.isSlot = true) : (weld [.text t] ps).getLast? = ps.getLast? := by
  rcases ps with _ | ⟨⟨v⟩ | ⟨name⟩, _ | ⟨q, qs⟩⟩
  · cases h
  · cases h
  · rw [weld_text, getLast?_cons_cons, getLast?_cons_cons]
  · rfl
  · exact getLast?_cons_cons

lemma endsOpen_append (h : pieces params (a ++ r) = weld [.text a] (pieces params r)) :
    endsOpen params (a ++ r) = endsOpen params r := by
  have hdynamic : isDynamic params (a ++ r) = isDynamic params r := by
    rw [isDynamic, h, any_isSlot_weld_text, isDynamic]
  rw [endsOpen, endsOpen, hdynamic]
  cases hr : isDynamic params r with
  | false => rfl
  | true =>
    have hne : r ≠ [] := by
      rintro rfl
      cases hr
    rw [h, getLast?_weld_text hr, getLast?_append_of_ne_nil _ hne]

lemma endsOpen_of_none (h : idiom? (c :: r) = none) : endsOpen params (c :: r) = endsOpen params r :=
  endsOpen_append (a := [c]) (pieces_of_none params h)

lemma endsOpen_link {name l : Text} (hquote : isIdiomQuote quote = true) (hl : IsLink name l) (rest : Text)
    :
    endsOpen params (quote :: (l ++ quote :: rest)) = endsOpen params rest := by
  have hpieces := pieces_link params hquote hl rest
  split_ifs at hpieces with hname
  · have hdynamic : isDynamic params (quote :: (l ++ quote :: rest)) = true := by
      rw [isDynamic, hpieces]
      rfl
    obtain ⟨u, qs, hrest⟩ := exists_pieces_eq params rest
    have hlast : (pieces params (quote :: (l ++ quote :: rest))).getLast? =
        (pieces params rest).getLast? := by
      rw [hpieces, hrest, getLast?_cons_cons, getLast?_cons_cons]
    cases rest with
    | nil =>
      have hend : (quote :: (l ++ [quote])).getLast? = some quote := by
        rw [← cons_append, getLast?_concat]
      rw [endsOpen, hend, any_some, hquote, Bool.not_true, Bool.and_false]
      rfl
    | cons c r =>
      have hend : (quote :: (l ++ quote :: c :: r)).getLast? = (c :: r).getLast? := by
        have hsplit : quote :: (l ++ quote :: c :: r) = (quote :: (l ++ [quote])) ++ c :: r := by simp
        rw [hsplit, getLast?_append_of_ne_nil _ (cons_ne_nil c r)]
      rw [endsOpen, endsOpen, hdynamic, hlast, hend]
      cases hstatic : isDynamic params (c :: r) with
      | true => rw [Bool.true_and]
      | false =>
        rw [(isDynamic_eq_false_iff params _).1 hstatic]
        simp
  · have hsplit : quote :: (l ++ quote :: rest) = (quote :: (l ++ [quote])) ++ rest := by simp
    rw [hsplit] at hpieces ⊢
    exact endsOpen_append hpieces

lemma endsOpen_addend (hquote : isIdiomQuote quote = true) (ht : IsAddend name t) :
    endsOpen params (quote :: t) = params.contains name := by
  have hpieces := pieces_addend params hquote ht
  split_ifs at hpieces with hname
  · have hend : (quote :: t).getLast?.any isIdiomQuote = false := by
      rcases eq_nil_or_concat t with rfl | ⟨u, c, rfl⟩
      · obtain ⟨g₁, _, _, -, -, -, -, hnil⟩ := ht
        simp at hnil
      · rw [concat_eq_append] at ht ⊢
        rw [← cons_append, getLast?_concat]
        exact isIdiomQuote_of_isAddendChar (ht.all c (by simp))
    rw [endsOpen, isDynamic, hpieces, hend, hname]
    rfl
  · rw [endsOpen, hpieces]
    simpa [Piece.isSlot] using hname

lemma idiom?_append_cons (hd : isAddendChar d = false)
    (h : idiom? (c :: (r ++ d :: u)) = some (name, rest)) :
    (∃ l w, IsLink name l ∧ r = l ++ c :: w) ∨ (d = c ∧ IsLink name r ∧ rest = u) := by
  have hnot : ∀ t : Text, (∀ x ∈ t, isAddendChar x = true) → d ∉ t := by
    intro t ht hmem
    rw [ht d hmem] at hd
    cases hd
  obtain ⟨-, ⟨l, hl, hsplit⟩ | ⟨hopen, -⟩⟩ := idiom?_eq_some_iff.1 h
  · rcases append_eq_append_iff.1 hsplit with ⟨a, rfl, ha⟩ | ⟨a, rfl, ha⟩
    · cases a with
      | nil =>
        obtain ⟨rfl, rfl⟩ := cons.inj ha
        exact .inr ⟨rfl, by simpa using hl, rfl⟩
      | cons x a =>
        obtain ⟨rfl, -⟩ := cons.inj ha
        exact absurd (by simp) (hnot _ hl.all)
    · cases a with
      | nil =>
        obtain ⟨rfl, rfl⟩ := cons.inj ha
        exact .inr ⟨rfl, by simpa using hl, rfl⟩
      | cons x a =>
        obtain ⟨rfl, -⟩ := cons.inj ha
        exact .inl ⟨l, a, hl, rfl⟩
  · exact absurd (by simp) (hnot _ hopen.all)

/-- An idiom that is found only across a seam is a link up to the seam. -/
lemma idiom?_across {c : Char} {found : Text × Text} (hd : isAddendChar d = false) (hnone : idiom? (c :: t) = none)
    (h : idiom? (c :: (t ++ d :: u)) = some found) : isIdiomQuote c = true ∧ d = c ∧ IsLink found.1 t := by
  have hquote := (idiom?_eq_some_iff.1 h).1
  rcases idiom?_append_cons hd h with ⟨l, w, hl, rfl⟩ | ⟨rfl, hl, -⟩
  · rw [idiom?_link hquote hl] at hnone
    cases hnone
  · exact ⟨hquote, rfl, hl⟩

lemma IsAddend.not_isLink {name name' : Text} (h : IsAddend name t) : ¬IsLink name' t := by
  have hone : ∀ {n a : Text}, IsAddend n a → a.count '+' = 1 := by
    rintro n a ⟨g₁, g₂, g₃, h₁, h₂, h₃, hname, rfl⟩
    have hblank : ∀ g : Text, allBlank g = true → g.count '+' = 0 := by
      intro g hg
      refine count_eq_zero.2 fun hmem => ?_
      exact absurd (all_isBlank hg _ hmem) (by decide)
    have hword : n.count '+' = 0 := by
      refine count_eq_zero.2 fun hmem => ?_
      exact absurd (isWord_of_mem_name hname _ hmem) (by decide)
    simp [hblank g₁ h₁, hblank g₂ h₂, hblank g₃ h₃, hword]
  rintro ⟨a, g, ha, hg, rfl⟩
  have hcount := hone h
  rw [count_append, hone ha, count_cons_self] at hcount
  omega

lemma idiom?_append_of_addend (ht : IsAddend name t) (hd : isAddendChar d = false)
    (hquote : isIdiomQuote quote = true) (u : Text) : idiom? (quote :: (t ++ d :: u)) = none := by
  refine eq_none_iff_forall_ne_some.2 fun found hfound => ?_
  rcases idiom?_append_cons hd hfound with ⟨l, w, -, rfl⟩ | ⟨-, hlink, -⟩
  · have hbad := isIdiomQuote_of_isAddendChar (ht.all quote (by simp))
    rw [hquote] at hbad
    cases hbad
  · exact ht.not_isLink hlink

lemma pieces_of_forall (h : ∀ c ∈ t, isAddendChar c = true) : pieces params t = [.text t] := by
  have hquotes : ∀ c ∈ t, isIdiomQuote c = false := fun c hc => isIdiomQuote_of_isAddendChar (h c hc)
  have happend := pieces_append_of_forall params hquotes []
  rwa [append_nil, pieces_nil, weld_text, append_nil] at happend

/-- **Values in two parts.**  The pieces of a value are those of its parts welded together, unless
the second part completes an idiom.  The first part must not end with an idiom of its own, and the
second starts with a character that can stand in no link. -/
lemma pieces_append_cons (hd : isAddendChar d = false) (hnone : idiom? (d :: u) = none)
    (hopen : endsOpen params t = false) :
    pieces params (t ++ d :: u) = weld (pieces params t) (pieces params (d :: u)) ∨
      (isIdiomQuote d = true ∧ ∃ ps name,
        pieces params (t ++ d :: u) = ps ++ .slot name :: pieces params u) := by
  induction t using scan_induction with
  | nil => exact .inl (pieces_append_of_forall params (forall_mem_nil _) (d :: u))
  | link quote name l rest hquote hl ih =>
    have hsplit : quote :: (l ++ quote :: rest) ++ d :: u =
        quote :: (l ++ quote :: (rest ++ d :: u)) := by simp
    rw [endsOpen_link hquote hl] at hopen
    rw [hsplit, pieces_link params hquote hl, pieces_link params hquote hl]
    rcases ih hopen with h | ⟨hd, ps, name', h⟩
    · left
      split_ifs
      · rw [weld_slot, h]
      · rw [weld_text_assoc, h]
    · right
      refine ⟨hd, ?_⟩
      split_ifs
      · exact ⟨.text [] :: .slot name :: ps, name', by rw [h]; rfl⟩
      · obtain ⟨rs, hrs⟩ := exists_weld_text_append (quote :: (l ++ [quote])) name' ps (pieces params u)
        exact ⟨rs, name', by rw [h, hrs]⟩
  | addend quote name t hquote ht =>
    rw [endsOpen_addend hquote ht] at hopen
    have hquotes : ∀ c ∈ t, isIdiomQuote c = false := fun c hc =>
      isIdiomQuote_of_isAddendChar (ht.all c hc)
    left
    rw [pieces_addend params hquote ht, hopen, cons_append,
      pieces_of_none params (idiom?_append_of_addend ht hd hquote u),
      pieces_append_of_forall params hquotes, weld_text_weld]
    rfl
  | other c r hidiom ih =>
    rw [endsOpen_of_none hidiom] at hopen
    rw [cons_append]
    cases hacross : idiom? (c :: (r ++ d :: u)) with
    | none =>
      rw [pieces_of_none params hacross, pieces_of_none params hidiom]
      rcases ih hopen with h | ⟨hd, ps, name', h⟩
      · exact .inl (by rw [h, weld_text_assoc])
      · obtain ⟨rs, hrs⟩ := exists_weld_text_append [c] name' ps (pieces params u)
        exact .inr ⟨hd, rs, name', by rw [h, hrs]⟩
    | some found =>
      obtain ⟨hquote, rfl, hl⟩ := idiom?_across hd hidiom hacross
      rw [pieces_link params hquote hl, pieces_of_none params hidiom, pieces_of_forall hl.all,
        pieces_of_none params hnone, weld_text, weld_text_weld]
      split_ifs
      · exact .inr ⟨hquote, [.text []], found.1, rfl⟩
      · exact .inl rfl

lemma pieces_append_cons_ne (hd : isAddendChar d = false) (hopen : endsOpen params t = true) :
    pieces params (t ++ d :: u) ≠ weld (pieces params t) (pieces params (d :: u)) := by
  have hcancel : ∀ (a r : Text), weld [.text a] (pieces params (r ++ d :: u)) =
      weld [.text a] (weld (pieces params r) (pieces params (d :: u))) →
      pieces params (r ++ d :: u) = weld (pieces params r) (pieces params (d :: u)) := by
    intro a r h
    exact (weld_text_inj (pieces_alternating params _)
      (alternating_weld (pieces_alternating params r) (pieces_alternating params _))).1 h
  induction t using scan_induction with
  | nil => cases hopen
  | link quote name l rest hquote hl ih =>
    have hsplit : quote :: (l ++ quote :: rest) ++ d :: u =
        quote :: (l ++ quote :: (rest ++ d :: u)) := by simp
    rw [endsOpen_link hquote hl] at hopen
    rw [hsplit, pieces_link params hquote hl, pieces_link params hquote hl]
    split_ifs
    · rw [weld_slot]
      exact fun h => ih hopen (cons.inj (cons.inj h).2).2
    · rw [weld_text_assoc]
      exact fun h => ih hopen (hcancel _ rest h)
  | addend quote name t hquote ht =>
    rw [endsOpen_addend hquote ht] at hopen
    obtain ⟨v, ps, hv⟩ := exists_pieces_eq params (t ++ d :: u)
    rw [cons_append, pieces_of_none params (idiom?_append_of_addend ht hd hquote u), hv,
      pieces_addend params hquote ht, if_pos hopen]
    exact fun h => absurd (Piece.text.inj (cons.inj h).1) (by simp)
  | other c r hidiom ih =>
    rw [endsOpen_of_none hidiom] at hopen
    rw [cons_append]
    cases hacross : idiom? (c :: (r ++ d :: u)) with
    | none =>
      rw [pieces_of_none params hacross, pieces_of_none params hidiom, weld_text_assoc]
      exact fun h => ih hopen (hcancel _ r h)
    | some found =>
      obtain ⟨-, -, hl⟩ := idiom?_across hd hidiom hacross
      have hstatic : isDynamic params r = false :=
        (isDynamic_eq_false_iff params r).2 (pieces_of_forall hl.all)
      rw [endsOpen, hstatic] at hopen
      cases hopen

end Seams

end Restage.TypeScript
