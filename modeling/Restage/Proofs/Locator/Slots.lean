import Restage.Proofs.Locator.CallReading
import Restage.Proofs.TypeScript.Idioms

/-!
# Slots in locator calls

A parameter in a locator value is a slot of the call.  Slots are found twice: in the value, and in
the selector that is made from it, which is what the literal is written from.  A selector that only
has text in front of the value has the same slots.  Two kinds of locators do more.  The selector of
a name stands between double quotes, which can complete idioms of the value, start new ones and hide
an idiom at its end; and a role is cut at the first colon, before which an idiom may end that did
not end in the value.

`slots_survive_iff` says for every kind and every value exactly when the call carries the slots of
the value with the text around them.  For names the seams of `pieces_append_cons` meet at both ends
of the value: `Chained` describes what the opening quote does to the idioms after it, and
`BreaksOff` the link at the end of a value that the closing quote completes.
-/

namespace Restage.Locator

open Text TypeScript List Option CallParts

variable {rest other : Text} (method : Text) (first : List Piece)

/-! ## What a call carries -/

def slotName? : Piece → Option Text
  | .slot name => some name
  | .text _ => none

/-- The names of the slots among some pieces, in their order. -/
def slotNames (ps : List Piece) : List Text := ps.filterMap slotName?

/-- The arguments of a call as one value: a colon divides the role from the accessible name. -/
def CallParts.value (c : CallParts) : List Piece :=
  match c.option with
  | .named name => weld (weld c.first [.text [':']]) name
  | _ => c.first

/-- The text that a selector has before its value. -/
def Kind.opening : Kind → Text
  | .xpath => "xpath="
  | .id => "#"
  | .className => "."
  | .name => "[name=\""
  | _ => []

/-- The text that a selector has after its value. -/
def Kind.closing : Kind → Text
  | .name => "\"]"
  | _ => []

/-- A call carries the slots of a value: they are its own slots in their order, and the text around
them is that of the value, inside of what the selector adds to it. -/
def CallParts.Carries (c : CallParts) (kind : Kind) (ps : List Piece) : Prop :=
  slotNames c.value = slotNames ps ∧
    (slotNames ps ≠ [] → c.value = weld (weld [.text kind.opening] ps) [.text kind.closing])

lemma value_named (name : List Piece) :
    CallParts.value ⟨method, first, .named name⟩ = weld (weld first [.text [':']]) name := rfl

lemma value_nothing :
    CallParts.value ⟨method, first, .nothing⟩ = first := rfl

/-! ## When it does -/

/-- A text starts with links, each followed by a double quote, and one of them has the name.  After
a double quote these are idioms, each of which may take its opening quote from the one before. -/
inductive Chained (name : Text) : Text → Prop
  | here {l : Text} (rest : Text) : IsLink name l → Chained name (l ++ '"' :: rest)
  | later {other l rest : Text} : IsLink other l → Chained name rest → Chained name (l ++ '"' :: rest)

/-- A text ends with a double quote and a link that names a parameter. -/
def BreaksOff (params : List Text) (t : Text) : Prop :=
  ∃ before l name, t = before ++ '"' :: l ∧ IsLink name l ∧ name ∈ params

/-- The seams of a selector leave the slots of the value alone.  In the selector of a name that has
slots the opening quote must start no chain with a parameter in it, the closing quote must belong to
no slot, and the last slot must have its own closing quote; one without slots must not break off.
In a role the last slot before the colon must have its own closing quote. -/
def KeepsSlots (params : List Text) (value : Text) : Kind → Prop
  | .name =>
    if isDynamic params value then
      (∀ name ∈ params, ¬Chained name (value ++ "\"]")) ∧
        (pieces params (value ++ "\"]")).getLast? ≠ some (.text "]") ∧
        endsOpen params value = false
    else ¬BreaksOff params ('"' :: value)
  | .role => ∀ role name, cutFirst? ':' value = some (role, name) → endsOpen params role = false
  | _ => True

/-! ## Slots and welding -/

section Weld

variable {ps : List Piece}

lemma slotNames_eq_nil_iff : slotNames ps = [] ↔ ps.any Piece.isSlot = false := by
  rw [slotNames, filterMap_eq_nil_iff, List.any_eq_false]
  refine forall₂_congr fun p _ => ?_
  rcases p with t | name <;> simp [slotName?, Piece.isSlot]

lemma slotNames_ne_nil_iff {params : List Text} {value : Text} :
    slotNames (pieces params value) ≠ [] ↔ isDynamic params value = true := by
  rw [ne_eq, slotNames_eq_nil_iff, Bool.not_eq_false, isDynamic]

lemma slotNames_weld (ps qs : List Piece) : slotNames (weld ps qs) = slotNames ps ++ slotNames qs := by
  induction ps, qs using weld.induct with
  | case1 t u qs => rfl
  | case2 qs => rfl
  | case3 p ps qs hmeet ih =>
    rw [weld.eq_3 _ _ _ hmeet]
    rcases p with t | name
    · exact ih
    · exact congrArg (name :: ·) ih

lemma weld_nil (h : Alternating ps) : weld ps [.text []] = ps := by
  induction h with
  | last t => rw [weld_text, append_nil]
  | cons t _ _ ih => rw [weld_slot, ih]

lemma nil_weld (h : Alternating ps) : weld [.text []] ps = ps := by
  rcases h with ⟨t⟩ | ⟨t, -, -⟩ <;> rw [weld_text, nil_append]

lemma getLast?_weld (h : Alternating ps) (t : Text) :
    ∃ u, (weld ps [.text t]).getLast? = some (.text (u ++ t)) := by
  induction h with
  | last u => exact ⟨u, rfl⟩
  | cons u _ hrest ih =>
    obtain ⟨v, hv⟩ := ih
    refine ⟨v, ?_⟩
    rw [weld_slot, getLast?_cons, getLast?_cons, hv]
    rfl

lemma weld_cons_ne (c : Char) (t : Text) (ps qs : List Piece) :
    weld [.text (c :: t)] qs ≠ .text [] :: ps := by
  rcases qs with _ | ⟨⟨u⟩ | ⟨name⟩, qs⟩ <;> simp [weld]

end Weld

/-! ## The opening quote -/

variable {l t r w : Text} {zs : List Piece} {c quote : Char}

section Chains

variable {params : List Text} {name : Text}

lemma name_eq_of_isLink (h : IsLink name l) (hother : IsLink other l) : name = other := by
  have hread := idiom?_link (by decide : isIdiomQuote '"' = true) h []
  rw [idiom?_link (by decide) hother] at hread
  exact (Prod.mk.inj (some.inj hread)).1.symm

lemma not_mem_of_isLink (h : IsLink name l) : '"' ∉ l := by
  intro hmem
  exact absurd (h.all _ hmem) (by decide)

lemma chained_append_iff (hl : IsLink other l) :
    Chained name (l ++ '"' :: rest) ↔ name = other ∨ Chained name rest := by
  have hsame : ∀ {n m rest' : Text}, IsLink n m → m ++ '"' :: rest' = l ++ '"' :: rest →
      n = other ∧ rest' = rest := by
    intro n m rest' hm heq
    have hread := idiom?_link (by decide : isIdiomQuote '"' = true) hm rest'
    rw [heq, idiom?_link (by decide) hl] at hread
    obtain ⟨hname, hrest⟩ := Prod.mk.inj (some.inj hread)
    exact ⟨hname.symm, hrest.symm⟩
  constructor
  · generalize ht : l ++ '"' :: rest = t
    rintro (⟨rest', hm⟩ | ⟨hm, hchain⟩)
    · exact .inl (hsame hm ht.symm).1
    · exact .inr ((hsame hm ht.symm).2 ▸ hchain)
  · rintro (rfl | hchain)
    · exact .here rest hl
    · exact .later hl hchain

lemma forall_not_chained_append_iff (hl : IsLink other l) (hother : other ∉ params) :
    (∀ name ∈ params, ¬Chained name (l ++ '"' :: rest)) ↔ ∀ name ∈ params, ¬Chained name rest := by
  refine forall₂_congr fun name hname => ?_
  have hne : name ≠ other := by
    rintro rfl
    exact hother hname
  rw [chained_append_iff hl, not_or, and_iff_right hne]

lemma not_chained_of_none (h : idiom? ('"' :: t) = none) : ¬Chained name t := by
  rintro (⟨rest, hl⟩ | ⟨hl, -⟩) <;>
  · rw [idiom?_link (by decide) hl] at h
    cases h

section

variable (hl : IsLink name l)
include hl

lemma pieces_link_append (t : Text) : pieces params (l ++ t) = weld [.text l] (pieces params t) :=
  pieces_append_of_forall params (fun c hc => isIdiomQuote_of_isAddendChar (hl.all c hc)) t

lemma pieces_quote_link (hname : name ∉ params) (rest : Text) :
    pieces params ('"' :: (l ++ '"' :: rest)) =
      weld [.text ('"' :: l)] (weld [.text ['"']] (pieces params rest)) := by
  rw [pieces_link params (by decide) hl, if_neg (by simpa using hname), weld_text_weld]
  rfl

omit hl in
/-- **A quote in front of a text** is text, and the slots after it are unchanged, if no chain of
links comes after it that names a parameter. -/
lemma pieces_quote_iff (hlast : t.getLast? = some ']') :
    pieces params ('"' :: t) = weld [.text ['"']] (pieces params t) ↔ ∀ name ∈ params, ¬Chained name t := by
  induction hn : t.length using Nat.strong_induction_on generalizing t with
  | _ n ih =>
  cases hidiom : idiom? ('"' :: t) with
  | none =>
    refine iff_of_true (pieces_of_none params hidiom) ?_
    intro name _
    exact not_chained_of_none hidiom
  | some found =>
    obtain ⟨other, rest⟩ := found
    obtain ⟨-, ⟨l, hl, rfl⟩ | ⟨haddend, -⟩⟩ := idiom?_eq_some_iff.1 hidiom
    · by_cases hother : other ∈ params
      · refine iff_of_false ?_ fun h => h other hother (.here rest hl)
        rw [pieces_link params (by decide) hl, if_pos (by simpa using hother)]
        exact (weld_cons_ne _ _ _ _).symm
      · have hrest : rest.getLast? = some ']' := by
          rw [getLast?_append_cons, getLast?_cons] at hlast
          cases hend : rest.getLast? with
          | none =>
            rw [hend] at hlast
            exact absurd (some.inj hlast) (by decide)
          | some c => rwa [hend] at hlast
        have hshort : rest.length < n := by
          rw [← hn, length_append, length_cons]
          omega
        -- The link is text on both sides, and the quote after it takes the place of the one before
        -- it.
        rw [pieces_quote_link hl hother, pieces_link_append hl, weld_text_weld ['"'],
          singleton_append, weld_text_inj (alternating_weld (.last _) (pieces_alternating _ _))
          (pieces_alternating _ _), eq_comm, ih rest.length hshort hrest rfl,
          forall_not_chained_append_iff hl hother]
    · have hbracket := haddend.all ']' (mem_of_getLast? hlast)
      exact absurd hbracket (by decide)

omit hl in
lemma isDynamic_weld_text {u : Text} (h : pieces params t = weld [.text u] (pieces params r)) :
    isDynamic params t = isDynamic params r := by
  rw [isDynamic, h, any_isSlot_weld_text, isDynamic]

lemma isDynamic_quote_link (hname : name ∉ params) (rest : Text) :
    isDynamic params ('"' :: (l ++ '"' :: rest)) = isDynamic params rest := by
  rw [isDynamic, pieces_quote_link hl hname, any_isSlot_weld_text, any_isSlot_weld_text, isDynamic]

lemma isDynamic_eq_false_of_isLink : isDynamic params l = false :=
  (isDynamic_eq_false_iff params l).2 (pieces_of_forall hl.all)

lemma isDynamic_quote_eq_false_of_isLink : isDynamic params ('"' :: l) = false := by
  have hnone : idiom? ('"' :: l) = none := by
    refine eq_none_iff_forall_ne_some.2 fun found hfound => ?_
    obtain ⟨-, ⟨m, hm, rfl⟩ | ⟨haddend, -⟩⟩ := idiom?_eq_some_iff.1 hfound
    · exact not_mem_of_isLink hl (by simp)
    · exact haddend.not_isLink hl
  rw [isDynamic_weld_text (pieces_of_none params hnone), isDynamic_eq_false_of_isLink hl]

lemma carried_inside_iff (hname : name ∉ params) (hzs : Alternating zs) :
    pieces params ('"' :: (l ++ '"' :: t)) = weld [.text ['"']] (weld (pieces params (l ++ '"' :: w)) zs) ↔
      weld [.text ['"']] (pieces params t) = weld (pieces params ('"' :: w)) zs := by
  rw [pieces_quote_link hl hname, pieces_link_append hl, weld_text_assoc, weld_text_weld ['"']]
  exact weld_text_inj (alternating_weld (.last _) (pieces_alternating _ _))
    (alternating_weld (pieces_alternating _ _) hzs)

lemma carried_outside_iff (hname : name ∉ params) (hzs : Alternating zs) :
    weld [.text ['"']] (pieces params (l ++ '"' :: t)) = weld (pieces params ('"' :: (l ++ '"' :: w))) zs ↔
      pieces params ('"' :: t) = weld [.text ['"']] (weld (pieces params w) zs) := by
  rw [pieces_quote_link hl hname, pieces_link_append hl, weld_text_weld, weld_text_assoc,
    weld_text_assoc]
  exact weld_text_inj (pieces_alternating _ _)
    (alternating_weld (.last _) (alternating_weld (pieces_alternating _ _) hzs))

end

/-- If a value with slots is carried whole between an opening and a closing quote, then the opening
quote starts no chain.  Each link of a chain moves the quote from one side to the other, so the two
parts of the statement are proved together. -/
lemma not_chained_of_carried (value : Text) :
    (isDynamic params value = true →
      pieces params ('"' :: (value ++ "\"]")) =
        weld [.text ['"']] (weld (pieces params value) [.text "\"]"]) →
      ∀ name ∈ params, ¬Chained name (value ++ "\"]")) ∧
    (isDynamic params ('"' :: value) = true →
      weld [.text ['"']] (pieces params (value ++ "\"]")) =
        weld (pieces params ('"' :: value)) [.text "\"]"] →
      ∀ name ∈ params, ¬Chained name (value ++ "\"]")) := by
  induction hn : value.length using Nat.strong_induction_on generalizing value with
  | _ n ih =>
  cases hidiom : idiom? ('"' :: (value ++ "\"]")) with
  | none =>
    have hfree : ∀ name ∈ params, ¬Chained name (value ++ "\"]") := by
      intro name _
      exact not_chained_of_none hidiom
    exact ⟨fun _ _ => hfree, fun _ _ => hfree⟩
  | some found =>
    obtain ⟨other, rest⟩ := found
    rcases idiom?_append_cons (by decide) hidiom with ⟨l, w, hl, rfl⟩ | ⟨-, hlink, -⟩
    · have hshort : w.length < n := by
        rw [← hn, length_append, length_cons]
        omega
      obtain ⟨hfirst, hsecond⟩ := ih w.length hshort w rfl
      have hsplit : l ++ '"' :: w ++ "\"]" = l ++ '"' :: (w ++ "\"]") := by simp
      rw [hsplit]
      by_cases hother : other ∈ params
      · -- A slot at the quote leaves no text in front of it.
        rw [pieces_link params (by decide) hl, pieces_link params (by decide) hl,
          if_pos (by simpa using hother), if_pos (by simpa using hother)]
        exact ⟨fun _ hcarried => absurd hcarried.symm (weld_cons_ne _ _ _ _),
          fun _ hcarried => absurd hcarried (weld_cons_ne _ _ _ _)⟩
      · rw [carried_inside_iff hl hother (.last _), carried_outside_iff hl hother (.last _),
          forall_not_chained_append_iff hl hother, isDynamic_weld_text (pieces_link_append hl _),
          isDynamic_quote_link hl hother]
        exact ⟨hsecond, hfirst⟩
    · rw [isDynamic_eq_false_of_isLink hlink, isDynamic_quote_eq_false_of_isLink hlink]
      exact ⟨fun h => absurd h Bool.false_ne_true, fun h => absurd h Bool.false_ne_true⟩

lemma pieces_closing : pieces params "\"]" = [.text "\"]"] := by
  rfl

lemma pieces_append_closing_iff {value : Text} :
    pieces params (value ++ "\"]") = weld (pieces params value) [.text "\"]"] ↔
      (pieces params (value ++ "\"]")).getLast? ≠ some (.text "]") ∧ endsOpen params value = false := by
  constructor
  · intro hcarried
    constructor
    · obtain ⟨u, hu⟩ := getLast?_weld (pieces_alternating params value) "\"]"
      rw [hcarried, hu]
      intro heq
      have hlength := congrArg length (Piece.text.inj (some.inj heq))
      rw [length_append] at hlength
      change u.length + 2 = 1 at hlength
      omega
    · by_contra hopen
      rw [Bool.not_eq_false] at hopen
      refine pieces_append_cons_ne (by decide : isAddendChar '"' = false) (u := [']']) hopen ?_
      exact hcarried.trans (congrArg (weld _) pieces_closing.symm)
  · rintro ⟨hclosed, hopen⟩
    rcases pieces_append_cons (by decide : isAddendChar '"' = false) (rfl : idiom? ('"' :: "]") = none)
      hopen with hback | ⟨-, ps, name, hback⟩
    · exact hback.trans (congrArg (weld _) pieces_closing)
    · refine absurd ((congrArg List.getLast? hback).trans ?_) hclosed
      rw [getLast?_append_cons]
      rfl

/-- **A value with slots between its quotes.**  It is carried whole if the opening quote starts no
chain, the closing quote ends no slot and the last slot has its own quote. -/
lemma pieces_quoted_iff {value : Text} (hdynamic : isDynamic params value = true) :
    pieces params ('"' :: (value ++ "\"]")) =
        weld [.text ['"']] (weld (pieces params value) [.text "\"]"]) ↔
      (∀ name ∈ params, ¬Chained name (value ++ "\"]")) ∧
        (pieces params (value ++ "\"]")).getLast? ≠ some (.text "]") ∧ endsOpen params value = false := by
  have hlast : (value ++ "\"]").getLast? = some ']' := by
    rw [getLast?_append_of_ne_nil _ (by decide)]
    rfl
  constructor
  · intro hcarried
    have hfree := (not_chained_of_carried value).1 hdynamic hcarried
    rw [(pieces_quote_iff hlast).2 hfree, weld_text_inj (pieces_alternating _ _)
      (alternating_weld (pieces_alternating _ _) (.last _))] at hcarried
    exact ⟨hfree, pieces_append_closing_iff.1 hcarried⟩
  · rintro ⟨hfree, hclosing⟩
    rw [(pieces_quote_iff hlast).2 hfree, pieces_append_closing_iff.2 hclosing]

end Chains

/-! ## The closing quote -/

section Static

variable {params : List Text}

lemma not_breaksOff_nil : ¬BreaksOff params [] := by
  rintro ⟨before, l, name, hsplit, -⟩
  simp at hsplit

lemma breaksOff_cons_iff : BreaksOff params (c :: r) ↔
    (c = '"' ∧ ∃ name ∈ params, IsLink name r) ∨ BreaksOff params r := by
  constructor
  · rintro ⟨before, l, name, hsplit, hl, hname⟩
    rcases before with _ | ⟨b, before⟩
    · obtain ⟨rfl, rfl⟩ := cons.inj hsplit
      exact .inl ⟨rfl, name, hname, hl⟩
    · exact .inr ⟨before, l, name, (cons.inj hsplit).2, hl, hname⟩
  · rintro (⟨rfl, name, hname, hl⟩ | ⟨before, l, name, rfl, hl, hname⟩)
    · exact ⟨[], r, name, rfl, hl, hname⟩
    · exact ⟨c :: before, l, name, rfl, hl, hname⟩

lemma breaksOff_append_iff {a : Text} (h : '"' ∉ a) : BreaksOff params (a ++ r) ↔ BreaksOff params r := by
  induction a with
  | nil => rfl
  | cons c a ih =>
    rw [mem_cons, not_or] at h
    rw [cons_append, breaksOff_cons_iff, ih h.2]
    exact or_iff_right fun hc => h.1 hc.1.symm

lemma flatMap_slashed_of_forall (h : ∀ c ∈ l, isAddendChar c = true) : l.flatMap (slashed '"') = l := by
  induction l with
  | nil => rfl
  | cons c l ih =>
    rw [forall_mem_cons] at h
    have hc : ¬(c = '\\' ∨ c = '"') := by
      rintro (rfl | rfl) <;> exact absurd h.1 (by decide)
    rw [flatMap_cons, slashed, if_neg hc, ih h.2]
    rfl

lemma flatMap_slashed_eq_self (h : ∀ c ∈ w.flatMap (slashed '"'), isAddendChar c = true) :
    w.flatMap (slashed '"') = w := by
  refine flatMap_slashed_of_forall fun c hc => ?_
  refine h c (mem_flatMap.2 ⟨c, hc, ?_⟩)
  rw [slashed]
  split_ifs <;> simp

/-- The first quote after a link is no double quote in an escaped text, since a backslash would come
before it, and it was there before. -/
lemma exists_of_slashed_eq (hl : ∀ c ∈ l, isAddendChar c = true) (hquote : quote ≠ '\\')
    (h : w.flatMap (slashed '"') = l ++ quote :: r) : quote ≠ '"' ∧ ∃ r', w = l ++ quote :: r' := by
  induction l generalizing w with
  | nil =>
    rcases w with _ | ⟨c, w⟩
    · cases h
    · rw [flatMap_cons, slashed] at h
      split_ifs at h with hc
      · exact absurd (cons.inj h).1.symm hquote
      · obtain ⟨rfl, -⟩ := cons.inj h
        exact ⟨fun heq => hc (.inr heq), w, rfl⟩
  | cons x l ih =>
    rw [forall_mem_cons] at hl
    rcases w with _ | ⟨c, w⟩
    · cases h
    · rw [flatMap_cons, slashed] at h
      split_ifs at h with hc
      · obtain ⟨rfl, -⟩ := cons.inj h
        exact absurd hl.1 (by decide)
      · obtain ⟨rfl, hrest⟩ := cons.inj h
        obtain ⟨hne, r', rfl⟩ := ih hl.2 hrest
        exact ⟨hne, r', rfl⟩

lemma isDynamic_quote_slashed_iff (w : Text) :
    isDynamic params ('"' :: (w.flatMap (slashed '"') ++ "\"]")) = true ↔
      (∃ name ∈ params, IsLink name w) ∨ isDynamic params (w.flatMap (slashed '"') ++ "\"]") = true := by
  have hclosing : "\"]".toList = '"' :: [']'] := rfl
  rw [hclosing]
  cases hidiom : idiom? ('"' :: (w.flatMap (slashed '"') ++ '"' :: [']'])) with
  | none =>
    rw [isDynamic_weld_text (pieces_of_none params hidiom)]
    refine (or_iff_right ?_).symm
    rintro ⟨name, -, hl⟩
    rw [flatMap_slashed_of_forall hl.all, idiom?_link (by decide) hl] at hidiom
    cases hidiom
  | some found =>
    obtain ⟨other, rest⟩ := found
    rcases idiom?_append_cons (by decide) hidiom with ⟨l, r, hl, hsplit⟩ | ⟨-, hl, -⟩
    · exact absurd rfl (exists_of_slashed_eq hl.all (by decide) hsplit).1
    · have hself := flatMap_slashed_eq_self hl.all
      rw [hself] at hl ⊢
      by_cases hother : other ∈ params
      · refine iff_of_true ?_ (.inl ⟨other, hother, hl⟩)
        rw [isDynamic, pieces_link params (by decide) hl, if_pos (by simpa using hother)]
        rfl
      · have hstatic : isDynamic params ['"', ']'] = false := by
          rfl
        rw [isDynamic, pieces_quote_link hl hother, any_isSlot_weld_text,
          isDynamic_weld_text (pieces_link_append hl _)]
        refine iff_of_false Bool.false_ne_true ?_
        rintro (⟨name, hname, hlink⟩ | hfalse)
        · exact hother (name_eq_of_isLink hlink hl ▸ hname)
        · cases hfalse

lemma isDynamic_slash_cons (t : Text) : isDynamic params ('\\' :: t) = isDynamic params t :=
  isDynamic_weld_text (pieces_of_none params (idiom?_eq_none_of_not_quote (by decide) t))

lemma isDynamic_slashed_quote_iff (w : Text) :
    isDynamic params (('"' :: w).flatMap (slashed '"') ++ "\"]") = true ↔
      (∃ name ∈ params, IsLink name w) ∨ isDynamic params (w.flatMap (slashed '"') ++ "\"]") = true := by
  rw [← isDynamic_quote_slashed_iff, ← isDynamic_slash_cons ('"' :: _)]
  rfl

lemma isDynamic_slashed_cons (hdouble : c ≠ '"')
    (hnone : c ≠ '\\' → idiom? (c :: (r.flatMap (slashed '"') ++ "\"]")) = none) :
    isDynamic params ((c :: r).flatMap (slashed '"') ++ "\"]") =
      isDynamic params (r.flatMap (slashed '"') ++ "\"]") := by
  rw [flatMap_cons, slashed]
  split_ifs with hslash
  · obtain rfl := hslash.resolve_right hdouble
    exact (isDynamic_slash_cons _).trans (isDynamic_slash_cons _)
  · rw [not_or] at hslash
    exact isDynamic_weld_text (pieces_of_none params (hnone hslash.1))

lemma isDynamic_slashed_append (hl : ∀ c ∈ l, isAddendChar c = true) (r : Text) :
    isDynamic params ((l ++ r).flatMap (slashed '"') ++ "\"]") =
      isDynamic params (r.flatMap (slashed '"') ++ "\"]") := by
  have hquotes : ∀ c ∈ l, isIdiomQuote c = false := fun c hc => isIdiomQuote_of_isAddendChar (hl c hc)
  rw [flatMap_append, flatMap_slashed_of_forall hl, append_assoc]
  exact isDynamic_weld_text (pieces_append_of_forall params hquotes _)

lemma isDynamic_closing : isDynamic params (([] : Text).flatMap (slashed '"') ++ "\"]") = false := by
  rw [flatMap_nil, nil_append, isDynamic, pieces_closing]
  rfl

lemma isDynamic_link_eq_false_iff {name : Text} (hquote : isIdiomQuote quote = true) (hl : IsLink name l)
    (rest : Text) : isDynamic params (quote :: (l ++ quote :: rest)) = false ↔
      name ∉ params ∧ isDynamic params rest = false := by
  rw [isDynamic, pieces_link params hquote hl]
  by_cases hname : name ∈ params
  · rw [if_pos (by simpa using hname)]
    exact iff_of_false (by simp [Piece.isSlot]) fun h => h.1 hname
  · rw [if_neg (by simpa using hname), any_isSlot_weld_text, isDynamic, and_iff_right hname]

lemma isDynamic_slashed_link {name : Text} (hquote : isIdiomQuote quote = true) (hdouble : quote ≠ '"')
    (hl : IsLink name l) (hname : name ∉ params) (rest : Text) :
    isDynamic params ((quote :: (l ++ quote :: rest)).flatMap (slashed '"') ++ "\"]") =
      isDynamic params (rest.flatMap (slashed '"') ++ "\"]") := by
  have hsingle : slashed '"' quote = [quote] := by
    rw [slashed, if_neg]
    rintro (rfl | heq)
    · exact absurd hquote (by decide)
    · exact hdouble heq
  have hescaped : (quote :: (l ++ quote :: rest)).flatMap (slashed '"') ++ "\"]" =
      quote :: (l ++ quote :: (rest.flatMap (slashed '"') ++ "\"]")) := by
    simp [hsingle, flatMap_slashed_of_forall hl.all]
  rw [hescaped, isDynamic, pieces_link params hquote hl, if_neg (by simpa using hname),
    any_isSlot_weld_text, isDynamic]

lemma idiom?_slashed_eq_none (hdouble : c ≠ '"') (hslash : c ≠ '\\') (h : idiom? (c :: r) = none) :
    idiom? (c :: (r.flatMap (slashed '"') ++ "\"]")) = none := by
  refine eq_none_iff_forall_ne_some.2 fun found hfound => ?_
  have hquote := (idiom?_eq_some_iff.1 hfound).1
  rcases idiom?_append_cons (by decide) hfound with ⟨l, w, hl, hsplit⟩ | ⟨heq, -, -⟩
  · obtain ⟨-, w', rfl⟩ := exists_of_slashed_eq hl.all hslash hsplit
    rw [idiom?_link hquote hl] at h
    cases h
  · exact hdouble heq.symm

/-- **An escaped value gains a slot** where it ends with a quote and a link, which the closing quote
completes. -/
lemma isDynamic_slashed_iff {value : Text} (hstatic : isDynamic params value = false) :
    isDynamic params (value.flatMap (slashed '"') ++ "\"]") = true ↔ BreaksOff params value := by
  induction value using scan_induction with
  | nil =>
    exact iff_of_false Bool.false_ne_true not_breaksOff_nil
  | link quote name l rest hquote hl ih =>
    obtain ⟨hname, hrest⟩ := (isDynamic_link_eq_false_iff hquote hl rest).1 hstatic
    by_cases hdouble : quote = '"'
    · rw [hdouble, isDynamic_slashed_quote_iff, isDynamic_slashed_append hl.all,
        isDynamic_slashed_quote_iff, ih hrest, breaksOff_cons_iff,
        breaksOff_append_iff (not_mem_of_isLink hl), breaksOff_cons_iff, and_iff_right rfl,
        and_iff_right rfl]
    · have hsplit : quote :: (l ++ quote :: rest) = quote :: (l ++ [quote]) ++ rest := by simp
      have hfree : '"' ∉ quote :: (l ++ [quote]) := by
        simp [not_mem_of_isLink hl, Ne.symm hdouble]
      rw [isDynamic_slashed_link hquote hdouble hl hname, ih hrest, hsplit, breaksOff_append_iff hfree]
  | addend quote name t hquote ht =>
    have hfree : '"' ∉ t := fun hmem => absurd (ht.all _ hmem) (by decide)
    have hend : isDynamic params (t.flatMap (slashed '"') ++ "\"]") = true ↔ BreaksOff params t := by
      rw [← append_nil t, isDynamic_slashed_append ht.all, isDynamic_closing, breaksOff_append_iff hfree]
      exact iff_of_false Bool.false_ne_true not_breaksOff_nil
    by_cases hdouble : quote = '"'
    · rw [hdouble, isDynamic_slashed_quote_iff, hend, breaksOff_cons_iff, and_iff_right rfl]
    · rw [isDynamic_slashed_cons hdouble fun _ => ?_, hend, breaksOff_cons_iff,
        or_iff_right fun h => hdouble h.1]
      rw [flatMap_slashed_of_forall ht.all]
      exact idiom?_append_of_addend ht (by decide) hquote _
  | other c r hidiom ih =>
    have hrest : isDynamic params r = false := by
      rwa [isDynamic_weld_text (pieces_of_none params hidiom)] at hstatic
    by_cases hdouble : c = '"'
    · rw [hdouble, isDynamic_slashed_quote_iff, ih hrest, breaksOff_cons_iff, and_iff_right rfl]
    · rw [isDynamic_slashed_cons hdouble fun hslash => idiom?_slashed_eq_none hdouble hslash hidiom,
        ih hrest, breaksOff_cons_iff, or_iff_right fun h => hdouble h.1]

end Static

/-! ## The kinds -/

section Kinds

variable {params : List Text} {value : Text}

lemma carries_of_opening {kind : Kind} {c : CallParts} (hopening : kind.opening.any isIdiomQuote = false)
    (hclosing : kind.closing = []) (hvalue : c.value = pieces params (kind.opening ++ value)) :
    c.Carries kind (pieces params value) := by
  have hpieces := hvalue.trans (pieces_append_of_forall params (forall_of_any_eq_false hopening) value)
  refine ⟨?_, fun _ => ?_⟩
  · rw [hpieces, slotNames_weld]
    rfl
  · rw [hclosing, weld_nil (alternating_weld (.last _) (pieces_alternating params value)), hpieces]

/-- A role and an accessible name carry the slots of the value that they were cut from, unless the
last slot of the role has no closing quote. -/
lemma carries_role_iff {role name : Text} (hsplit : value = role ++ ':' :: name) :
    Carries ⟨"getByRole", pieces params role, .named (pieces params name)⟩ .role
      (pieces params value) ↔ endsOpen params role = false := by
  have hcolon : idiom? (':' :: name) = none := idiom?_eq_none_of_not_quote (by decide) name
  have hvalue : CallParts.value ⟨"getByRole", pieces params role, .named (pieces params name)⟩ =
      weld (pieces params role) (pieces params (':' :: name)) := by
    rw [value_named, weld_assoc (pieces_alternating params role), pieces_of_none params hcolon]
  have hwhole : weld (weld [.text Kind.role.opening] (pieces params value)) [.text Kind.role.closing] =
      pieces params value := by
    rw [show Kind.role.opening = [] from rfl, show Kind.role.closing = [] from rfl,
      nil_weld (pieces_alternating params value), weld_nil (pieces_alternating params value)]
  rw [Carries, hvalue, hwhole]
  cases hopen : endsOpen params role with
  | false =>
    refine iff_of_true ?_ rfl
    rcases pieces_append_cons (by decide) hcolon hopen with hpieces | ⟨hquote, -⟩
    · rw [hsplit, hpieces]
      exact ⟨rfl, fun _ => rfl⟩
    · exact absurd hquote (by decide)
  | true =>
    refine iff_of_false ?_ Bool.noConfusion
    rintro ⟨hnames, htext⟩
    have hdynamic : isDynamic params role = true := by
      rw [endsOpen, Bool.and_eq_true, Bool.and_eq_true] at hopen
      exact hopen.1.1
    have hslots : slotNames (pieces params value) ≠ [] := by
      rw [← hnames, slotNames_weld]
      exact fun h => slotNames_ne_nil_iff.2 hdynamic (append_eq_nil_iff.1 h).1
    have hne := pieces_append_cons_ne (by decide : isAddendChar ':' = false) (u := name) hopen
    rw [← hsplit] at hne
    exact hne (htext hslots).symm

lemma pieces_nameSelector {inner : Text} (h : nameSelector params value = "[name=\"" ++ inner ++ "\"]") :
    pieces params (nameSelector params value) =
      weld [.text "[name="] (pieces params ('"' :: (inner ++ "\"]"))) := by
  have hquotes : ∀ c ∈ "[name=".toList, isIdiomQuote c = false := forall_of_any_eq_false (by decide)
  rw [h, ← pieces_append_of_forall params hquotes]
  rfl

lemma carries_name_iff : Carries ⟨"locator", pieces params (nameSelector params value), .nothing⟩
    .name (pieces params value) ↔ KeepsSlots params value .name := by
  rw [KeepsSlots]
  split_ifs with hdynamic
  · have hselector : nameSelector params value = "[name=\"" ++ value ++ "\"]" := by
      unfold nameSelector
      rw [if_pos hdynamic]
    have hopening : Kind.name.opening = "[name=".toList ++ ['"'] := rfl
    have hwhole : weld (weld [.text Kind.name.opening] (pieces params value)) [.text Kind.name.closing] =
        weld [.text "[name="] (weld [.text ['"']] (weld (pieces params value) [.text "\"]"])) := by
      rw [weld_text_assoc, weld_text_weld, hopening, Kind.closing]
    rw [Carries, value_nothing, pieces_nameSelector hselector, hwhole, ← pieces_quoted_iff hdynamic,
      forall_prop_of_true (slotNames_ne_nil_iff.2 hdynamic), weld_text_inj (pieces_alternating _ _)
      (alternating_weld (.last _) (alternating_weld (pieces_alternating _ _) (.last _)))]
    refine and_iff_right_of_imp fun hcarried => ?_
    rw [hcarried, slotNames_weld, slotNames_weld, slotNames_weld]
    exact append_nil _
  · rw [Bool.not_eq_true] at hdynamic
    have hselector : nameSelector params value = "[name=\"" ++ value.flatMap (slashed '"') ++ "\"]" := by
      unfold nameSelector
      rw [if_neg (by simp [hdynamic]), exchange_quote_exchange_slash (by decide)]
    have hnone : slotNames (pieces params value) = [] := slotNames_eq_nil_iff.2 hdynamic
    rw [Carries, value_nothing, pieces_nameSelector hselector, hnone, slotNames_weld,
      breaksOff_cons_iff, and_iff_right rfl, ← isDynamic_slashed_iff hdynamic, ← isDynamic_quote_slashed_iff,
      Bool.not_eq_true]
    refine Iff.trans (and_iff_left fun h => absurd rfl h) ?_
    exact slotNames_eq_nil_iff

lemma carries_roleParts_iff :
    (roleParts params value).Carries .role (pieces params value) ↔ KeepsSlots params value .role := by
  unfold KeepsSlots
  rcases hcut : cutFirst? ':' value with _ | ⟨role, name⟩
  · rw [roleParts_of_none hcut]
    refine iff_of_true (carries_of_opening (by decide) rfl rfl) ?_
    rintro role name ⟨⟩
  · rw [roleParts_of_some hcut, carries_role_iff (cutFirst?_spec hcut).1]
    constructor
    · rintro hopen _ _ ⟨⟩
      exact hopen
    · intro hkeeps
      exact hkeeps role name rfl

lemma carries_iff (params : List Text) (value : Text) (kind : Kind) :
    (callParts params value kind).Carries kind (pieces params value) ↔ KeepsSlots params value kind := by
  cases kind with
  | name => exact carries_name_iff
  | role => exact carries_roleParts_iff
  | _ => exact iff_of_true (carries_of_opening (by decide) rfl rfl) trivial

end Kinds

/-- **Slots in locator calls.**  For every locator and all parameters the call can be read back, and
it carries the slots of the value exactly if the seams of the selector leave them alone.  Only names
and roles have seams: for every other kind the slots always survive with the text around them. -/
theorem slots_survive_iff (d : Descriptor) (params : List Text) :
    ∃ c, readCall? (d.call params) = some c ∧
      (c.Carries d.kind (pieces params d.value) ↔ KeepsSlots params d.value d.kind) :=
  ⟨callParts params d.value d.kind, readCall?_call d.kind d.value params,
    carries_iff params d.value d.kind⟩

example : Descriptor.call ⟨.name, "user-\" + id + \"-row", none⟩ ["id"] =
    "locator(`[name=\"user-$\x7bid\x7d-row\"]`)".toList := by
  decide +kernel

/-- A name whose value ends with the idiom of a parameter: the closing quote of the selector hides
the idiom, and it is written as text. -/
theorem trailing_slot_lost :
    slotNames (pieces ["id"] "user-\" + id") = ["id".toList] ∧
      Descriptor.call ⟨.name, "user-\" + id", none⟩ ["id"] =
        "locator(\x27[name=\"user-\" + id\"]\x27)".toList ∧
      (readCall? (Descriptor.call ⟨.name, "user-\" + id", none⟩ ["id"])).map (slotNames ·.value) =
        some [] := by
  decide +kernel

end Restage.Locator
