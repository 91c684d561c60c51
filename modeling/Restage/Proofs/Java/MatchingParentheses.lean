import Restage.Proofs.Java.CallShapes
import Restage.Proofs.Locator.PlainPairs

/-!
# Matching parentheses

The arguments of a call are complete if the parentheses of their code match: no part at their start
closes more than it opens, and in the end nothing is open.  There are two ways to miss this.  The
call may be closed early, by a parenthesis after arguments that are complete, or a parenthesis may
be left open (`complete_iff`).

`splitCall?` looks for the opening parenthesis of a call from the right.  It finds the one after a
name exactly if the arguments behind it are complete and leave no literal open
(`splitCall?_call_iff`), and none at all exactly if they are `Tangled`.
-/

namespace Restage.Java

open Text List Option

variable {depth : Nat} {inside callee name gap m : Text}

/-! ## Balanced code -/

/-- The parentheses of a text match. -/
structure Balanced (m : Text) : Prop where
  /-- No part at the start closes more than it opens. -/
  nested : ∀ p, p <+: m → occurrences ')' p ≤ occurrences '(' p
  /-- As many are opened as are closed. -/
  total : occurrences '(' m = occurrences ')' m

instance (m : Text) : Decidable (Balanced m) :=
  decidable_of_iff ((∀ p ∈ m.inits, occurrences ')' p ≤ occurrences '(' p) ∧
      occurrences '(' m = occurrences ')' m)
    ⟨fun h => ⟨fun p hp => h.1 p ((List.mem_inits p m).2 hp), h.2⟩,
      fun h => ⟨fun p hp => h.nested p ((List.mem_inits p m).1 hp), h.total⟩⟩

/-- The arguments of a call are complete: the parentheses of their code match. -/
def Complete (arguments : Text) : Prop := Balanced (mask arguments)

instance (arguments : Text) : Decidable (Complete arguments) :=
  inferInstanceAs (Decidable (Balanced (mask arguments)))

/-- The call is closed before its arguments end. -/
def ClosedEarly (arguments : Text) : Prop :=
  ∃ inner rest, arguments = inner ++ ')' :: rest ∧ Quoting.after .code inner = .code ∧ Complete inner

/-- A parenthesis of the arguments is left open. -/
def LeftOpen (arguments : Text) : Prop :=
  ∃ outer inner, arguments = outer ++ '(' :: inner ∧ Quoting.after .code outer = .code ∧ Complete inner

variable (c : Char) (arguments t : Text)

@[simp] lemma occurrences_nil : occurrences c [] = 0 := rfl

@[simp] lemma occurrences_append (a b : Text) :
    occurrences c (a ++ b) = occurrences c a + occurrences c b := count_append

@[simp] lemma occurrences_cons_self : occurrences c (c :: t) = occurrences c t + 1 := count_cons_self

lemma occurrences_cons_of_ne {c d : Char} (h : d ≠ c) (t : Text) :
    occurrences c (d :: t) = occurrences c t := count_cons_of_ne h

@[simp] lemma openings_cons_closing : occurrences '(' (')' :: t) = occurrences '(' t :=
  occurrences_cons_of_ne (by decide) t

@[simp] lemma closings_cons_opening : occurrences ')' ('(' :: t) = occurrences ')' t :=
  occurrences_cons_of_ne (by decide) t

lemma balanced_iff_suffix :
    Balanced m ↔ (∀ q, q <:+ m → occurrences '(' q ≤ occurrences ')' q) ∧
      occurrences '(' m = occurrences ')' m := by
  constructor
  · rintro ⟨hnested, htotal⟩
    refine ⟨?_, htotal⟩
    rintro q ⟨p, rfl⟩
    have hp := hnested p (prefix_append p q)
    simp only [occurrences_append] at htotal
    omega
  · rintro ⟨hsuffix, htotal⟩
    refine ⟨?_, htotal⟩
    rintro p ⟨q, rfl⟩
    have hq := hsuffix q (suffix_append p q)
    simp only [occurrences_append] at htotal
    omega

lemma exists_closed_early (h : ∃ p, p <+: m ∧ occurrences '(' p < occurrences ')' p) :
    ∃ a b, m = a ++ ')' :: b ∧ Balanced a := by
  induction m using reverseRecOn with
  | nil =>
    obtain ⟨p, hp, hlt⟩ := h
    obtain rfl := prefix_nil.1 hp
    cases hlt
  | append_singleton m c ih =>
    by_cases hbefore : ∃ p, p <+: m ∧ occurrences '(' p < occurrences ')' p
    · obtain ⟨a, b, rfl, ha⟩ := ih hbefore
      exact ⟨a, b ++ [c], by simp, ha⟩
    · have hnested : ∀ p, p <+: m → occurrences ')' p ≤ occurrences '(' p := fun p hp =>
        Nat.le_of_not_lt fun hlt => hbefore ⟨p, hp, hlt⟩
      obtain ⟨p, hp, hlt⟩ := h
      rcases prefix_concat_iff.1 hp with rfl | hp
      · -- The last character is the one that closes too much.
        have hm := hnested m prefix_rfl
        by_cases hc : c = ')'
        · subst hc
          simp only [occurrences_append, occurrences_cons_self, occurrences_nil] at hlt
          exact ⟨m, [], rfl, hnested, by omega⟩
        · have hle : occurrences '(' m ≤ occurrences '(' (m ++ [c]) := by simp
          rw [occurrences_append ')', occurrences_cons_of_ne hc, occurrences_nil] at hlt
          omega
      · exact absurd hlt (not_lt.2 (hnested p hp))

lemma exists_left_open (h : ∃ q, q <:+ m ∧ occurrences ')' q < occurrences '(' q) :
    ∃ a b, m = a ++ '(' :: b ∧ Balanced b := by
  induction m with
  | nil =>
    obtain ⟨q, hq, hlt⟩ := h
    obtain rfl := suffix_nil.1 hq
    cases hlt
  | cons c m ih =>
    by_cases hafter : ∃ q, q <:+ m ∧ occurrences ')' q < occurrences '(' q
    · obtain ⟨a, b, rfl, hb⟩ := ih hafter
      exact ⟨c :: a, b, rfl, hb⟩
    · have hsuffix : ∀ q, q <:+ m → occurrences '(' q ≤ occurrences ')' q := fun q hq =>
        Nat.le_of_not_lt fun hlt => hafter ⟨q, hq, hlt⟩
      obtain ⟨q, hq, hlt⟩ := h
      rcases suffix_cons_iff.1 hq with rfl | hq
      · have hm := hsuffix m suffix_rfl
        by_cases hc : c = '('
        · subst hc
          simp only [occurrences_cons_self, closings_cons_opening] at hlt
          exact ⟨[], m, rfl, balanced_iff_suffix.2 ⟨hsuffix, by omega⟩⟩
        · have hle : occurrences ')' m ≤ occurrences ')' (c :: m) := count_le_count_cons
          rw [occurrences_cons_of_ne hc] at hlt
          omega
      · exact absurd hlt (not_lt.2 (hsuffix q hq))

/-- **Arguments are complete** exactly if the call is not closed early and nothing is left open. -/
lemma complete_iff : Complete arguments ↔ ¬ClosedEarly arguments ∧ ¬LeftOpen arguments := by
  constructor
  · intro h
    refine ⟨?_, ?_⟩
    · rintro ⟨inner, rest, rfl, hcode, hinner⟩
      rw [Complete, mask_append_cons rfl hcode] at h
      have hle := h.nested (mask inner ++ [')']) ⟨mask rest, by simp⟩
      have htotal := hinner.total
      simp only [occurrences_append, occurrences_cons_self, openings_cons_closing, occurrences_nil] at hle
      omega
    · rintro ⟨outer, inner, rfl, hcode, hinner⟩
      rw [Complete, mask_append_cons rfl hcode] at h
      have hle := h.nested (mask outer) (prefix_append _ _)
      have htotal := h.total
      have hinner := hinner.total
      simp only [occurrences_append, occurrences_cons_self, closings_cons_opening] at htotal
      omega
  · rintro ⟨hclosed, hopen⟩
    have hnested : ∀ p, p <+: mask arguments → occurrences ')' p ≤ occurrences '(' p := by
      intro p hp
      by_contra hlt
      obtain ⟨a, b, hmask, ha⟩ := exists_closed_early ⟨p, hp, Nat.lt_of_not_le hlt⟩
      obtain ⟨inner, rest, heq, hcode, rfl, -⟩ := exists_of_mask_eq rfl (by decide) hmask
      exact hclosed ⟨inner, rest, heq, hcode, ha⟩
    refine ⟨hnested, le_antisymm ?_ (hnested _ prefix_rfl)⟩
    by_contra hlt
    obtain ⟨a, b, hmask, hb⟩ := exists_left_open ⟨_, suffix_rfl, Nat.lt_of_not_le hlt⟩
    obtain ⟨outer, inner, heq, hcode, -, rfl⟩ := exists_of_mask_eq rfl (by decide) hmask
    exact hopen ⟨outer, inner, heq, hcode, hb⟩

/-! ## Matching from the right -/

/-- Read from the right with `depth` parentheses closed, a text opens them all, and none but
them. -/
def Reopens (depth : Nat) (m : Text) : Prop :=
  (∀ p, p <+: m → occurrences '(' p ≤ depth + occurrences ')' p) ∧
    occurrences '(' m = depth + occurrences ')' m

lemma reopens_reverse_iff : Reopens 0 m.reverse ↔ Balanced m := by
  have hreverse : ∀ (c : Char) (t : Text), occurrences c t.reverse = occurrences c t := fun c t =>
    count_reverse
  rw [balanced_iff_suffix, Reopens, hreverse, hreverse, Nat.zero_add]
  refine and_congr_left' ⟨fun h q hq => ?_, fun h p hp => ?_⟩
  · have hle := h q.reverse ( reverse_prefix.2 hq)
    rw [hreverse, hreverse] at hle
    omega
  · have hle := h p.reverse (by rw [← reverse_prefix, reverse_reverse]; exact hp)
    rw [hreverse, hreverse] at hle
    omega

lemma reopens_nil_iff : Reopens depth [] ↔ depth = 0 := by
  simp only [Reopens, prefix_nil, forall_eq, occurrences_nil]
  omega

lemma reopens_cons_iff {c : Char} :
    Reopens depth (c :: m) ↔
      if c = ')' then Reopens (depth + 1) m
      else if c = '(' then 0 < depth ∧ Reopens (depth - 1) m
      else Reopens depth m := by
  have hprefixes : ∀ {P : Text → Prop}, (∀ p, p <+: c :: m → P p) ↔ P [] ∧ ∀ p, p <+: m → P (c :: p) := by
    refine ⟨fun h => ⟨h [] nil_prefix, fun p hp => h _ (cons_prefix_cons.2 ⟨rfl, hp⟩)⟩, ?_⟩
    rintro ⟨hnil, hcons⟩ p hp
    rcases prefix_cons_iff.1 hp with rfl | ⟨q, rfl, hq⟩
    · exact hnil
    · exact hcons q hq
  simp only [Reopens, hprefixes, occurrences_nil, Nat.zero_le, true_and]
  by_cases hclose : c = ')'
  · subst hclose
    simp only [if_true, occurrences_cons_self, openings_cons_closing, Nat.add_assoc, Nat.add_comm 1]
  by_cases hopen : c = '('
  · subst hopen
    simp only [occurrences_cons_self, closings_cons_opening]
    constructor
    · rintro ⟨hnested, htotal⟩
      have hpos : 0 + 1 ≤ depth + 0 := hnested [] nil_prefix
      refine ⟨by omega, fun p hp => ?_, by omega⟩
      have := hnested p hp
      omega
    · rintro ⟨hpos, hnested, htotal⟩
      refine ⟨fun p hp => ?_, by omega⟩
      have := hnested p hp
      omega
  · simp only [if_neg hclose, if_neg hopen, occurrences_cons_of_ne hclose, occurrences_cons_of_ne hopen]

/-- A text, read backwards with its mask, has an opening parenthesis that is as many levels out as
the depth says; `arguments` is what stands behind it, with `inside` at the end. -/
def CutAt (depth : Nat) (inside callee arguments : Text) (t : List (Char × Char)) : Prop :=
  ∃ right c left, t = right ++ ('(', c) :: left ∧ Reopens depth (right.map (·.1)) ∧
    callee = (left.map (·.2)).reverse ∧ arguments = (right.map (·.2)).reverse ++ inside

lemma cutAt_cons_iff {inner : Nat} {arguments : Text} {shown c : Char} {r : List (Char × Char)}
    (hreopens : ∀ m, Reopens depth (shown :: m) ↔ Reopens inner m)
    (hnot : ¬Reopens depth [] ∨ shown ≠ '(') :
    CutAt inner (c :: inside) callee arguments r ↔ CutAt depth inside callee arguments ((shown, c) :: r) := by
  constructor
  · rintro ⟨right, d, left, rfl, hright, hcallee, harguments⟩
    exact ⟨(shown, c) :: right, d, left, rfl, (hreopens _).2 hright, hcallee, by simpa using harguments⟩
  · rintro ⟨_ | ⟨first, right⟩, d, left, hcut, hright, hcallee, harguments⟩
    · obtain ⟨hfirst, -⟩ := cons.inj hcut
      rcases hnot with hnot | hnot
      · exact absurd hright hnot
      · exact absurd (Prod.mk.inj hfirst).1 hnot
    · obtain ⟨rfl, rfl⟩ := cons.inj hcut
      exact ⟨right, d, left, rfl, (hreopens _).1 hright, hcallee, by simpa using harguments⟩

/-- **The cut** is at an opening parenthesis that is as many levels out as are asked for. -/
lemma cutOpening?_eq_some_iff {arguments : Text} {t : List (Char × Char)} :
    cutOpening? depth inside t = some (callee, arguments) ↔ CutAt depth inside callee arguments t := by
  -- Along the text: what has been read is the part to the right, and the depth is how much of it is
  -- still to be opened.
  induction t generalizing depth inside with
  | nil => simp [cutOpening?, CutAt]
  | cons pair r ih =>
    obtain ⟨shown, c⟩ := pair
    rw [cutOpening?.eq_def]
    dsimp only
    split_ifs with hclose hopen
    · subst hclose
      exact ih.trans (cutAt_cons_iff (fun m => by rw [reopens_cons_iff, if_pos rfl]) (.inr (by decide)))
    · subst hopen
      cases depth with
      | zero =>
        constructor
        · intro h
          cases h
          exact ⟨[], c, r, rfl, reopens_nil_iff.2 rfl, rfl, rfl⟩
        · rintro ⟨_ | ⟨first, right⟩, d, left, hcut, hright, rfl, rfl⟩
          · obtain ⟨-, rfl⟩ := cons.inj hcut
            rfl
          · obtain ⟨rfl, -⟩ := cons.inj hcut
            rw [map_cons, reopens_cons_iff] at hright
            exact absurd hright.1 (lt_irrefl 0)
      | succ depth =>
        refine ih.trans (cutAt_cons_iff (fun m => ?_) (.inl (by simp [reopens_nil_iff])))
        simp [reopens_cons_iff]
    · refine ih.trans (cutAt_cons_iff (fun m => ?_) (.inr hopen))
      rw [reopens_cons_iff, if_neg hclose, if_neg hopen]

/-! ## Calls -/

lemma trimmed_eq_some_iff {t : Text} (start : Text) : (dropFinal? ';' t).map trimRight = some (start ++ [')']) ↔
    ∃ gap : Text, t = start ++ ')' :: (gap ++ [';']) ∧ ∀ c ∈ gap, isBlank c = true := by
  constructor
  · intro h
    obtain ⟨body, hbody, htrimmed⟩ := map_eq_some_iff.1 h
    obtain ⟨gap, hgap, hblank⟩ := trimRight_eq body
    refine ⟨gap, ?_, hblank⟩
    rw [dropFinal?_eq_some_iff.1 hbody, hgap, htrimmed]
    simp
  · rintro ⟨gap, rfl, hgap⟩
    have hfinal : dropFinal? ';' (start ++ ')' :: (gap ++ [';'])) = some (start ++ ')' :: gap) :=
      dropFinal?_eq_some_iff.2 (by simp)
    have hblank : trimRight gap = [] := by
      rw [trimRight, dropWhile_eq_nil_iff.2 fun c hc => hgap c (mem_reverse.1 hc)]
      rfl
    rw [hfinal, map_some, trimRight_append_cons (by decide), hblank]

/-- **A call is split** at an opening parenthesis of the code whose arguments are complete, provided
that the last parenthesis is not inside a literal. -/
lemma splitCall?_eq_some_iff (hgap : ∀ c ∈ gap, isBlank c = true) (start callee arguments : Text) :
    splitCall? (start ++ ')' :: (gap ++ [';'])) = some (callee, arguments) ↔
      Quoting.after .code start = .code ∧ ∃ name, start = name ++ '(' :: arguments ∧
        Quoting.after .code name = .code ∧ Complete arguments ∧ callee = trim name := by
  have hbody := (trimmed_eq_some_iff start).2 ⟨gap, rfl, hgap⟩
  have hpairs : ((mask (start ++ [')'])).zip (start ++ [')'])).reverse =
      ((Quoting.after .code start).shown ')', ')') :: ((mask start).zip start).reverse := by
    rw [mask, maskFrom_append, zip_append (length_maskFrom _ _), reverse_append]
    rfl
  rw [splitCall?, hbody, bind_eq_bind, bind_some, hpairs]
  by_cases hcode : Quoting.after .code start = .code
  swap
  · -- The last parenthesis stands in a literal, and the mask does not show it.
    have hshown : (Quoting.after .code start).shown ')' ≠ ')' := fun hshown =>
      hcode (((Quoting.Proper.after (s := .code) trivial start).shown_eq_iff rfl (by decide)).1 hshown).1
    refine iff_of_false (fun h => ?_) fun h => hcode h.1
    split at h
    next heq => exact hshown (Prod.mk.inj (cons.inj heq).1).1
    · cases h
  rw [hcode]
  change (cutOpening? 0 [] ((mask start).zip start).reverse).map _ = _ ↔ _
  simp only [map_eq_some_iff, Prod.exists, cutOpening?_eq_some_iff, CutAt, Prod.mk.injEq, append_nil, true_and]
  have hfst : ∀ t : Text, ((mask t).zip t).reverse.map (·.1) = (mask t).reverse := fun t => by
    rw [map_reverse, map_fst_zip (le_of_eq (length_mask t))]
  have hsnd : ∀ t : Text, ((mask t).zip t).reverse.map (·.2) = t.reverse := fun t => by
    rw [map_reverse, map_snd_zip (le_of_eq (length_mask t).symm)]
  constructor
  · rintro ⟨_, _, ⟨right, c, left, hcut, hright, rfl, rfl⟩, rfl, rfl⟩
    have hmask : mask start = (left.map (·.1)).reverse ++ '(' :: (right.map (·.1)).reverse := by
      rw [← reverse_inj, ← hfst start, hcut]
      simp
    have hstart : start = (left.map (·.2)).reverse ++ c :: (right.map (·.2)).reverse := by
      rw [← reverse_inj, ← hsnd start, hcut]
      simp
    obtain ⟨name, inner, heq, hname, hleft, hinner⟩ := exists_of_mask_eq rfl (by decide) hmask
    have hlength : name.length = (left.map (·.2)).reverse.length := by
      rw [← length_mask name, hleft]
      simp
    obtain ⟨rfl, hcons⟩ := append_inj (heq.symm.trans hstart) hlength
    obtain ⟨-, rfl⟩ := cons.inj hcons
    refine ⟨_, heq, hname, ?_, rfl⟩
    rw [Complete, hinner, ← reopens_reverse_iff, reverse_reverse]
    exact hright
  · rintro ⟨name, hstart, hname, hcomplete, rfl⟩
    have hzip : ((mask start).zip start).reverse = ((mask arguments).zip arguments).reverse ++
        ('(', '(') :: ((mask name).zip name).reverse := by
      rw [hstart, mask_append_cons rfl hname, zip_append (length_mask name), zip_cons_cons,
        reverse_append, reverse_cons, append_assoc]
      rfl
    refine ⟨name, arguments, ⟨_, _, _, hzip, ?_, ?_, ?_⟩, rfl, rfl⟩
    · rw [hfst, reopens_reverse_iff]
      exact hcomplete
    · rw [hsnd, reverse_reverse]
    · rw [hsnd, reverse_reverse]

/-- **A call that is split** has a name, an opening parenthesis, complete arguments and the
parenthesis that closes them. -/
lemma splitCall?_parts {t arguments : Text} (h : splitCall? t = some (callee, arguments)) :
    ∃ name gap : Text, t = name ++ '(' :: (arguments ++ ')' :: (gap ++ [';'])) ∧ callee = trim name ∧
      (∀ c ∈ gap, isBlank c = true) ∧ Quoting.after .code name = .code ∧
      Quoting.after .code arguments = .code ∧ Complete arguments := by
  obtain ⟨start, gap, rfl, hgap⟩ : ∃ start gap : Text, t = start ++ ')' :: (gap ++ [';']) ∧
      ∀ c ∈ gap, isBlank c = true := by
    obtain ⟨body, hbody, h⟩ := bind_eq_some_iff.1 h
    split at h
    next c r hreverse =>
      have hmask : mask body = (r.map (·.1)).reverse ++ [')'] := by
        rw [← map_fst_zip (length_mask body).le, ← reverse_reverse ((mask _).zip _), hreverse]
        simp
      obtain ⟨start, inner, rfl, -, -, hinner⟩ := exists_of_mask_eq rfl (by decide) hmask
      obtain rfl : inner = [] := length_eq_zero_iff.1 (by rw [← length_mask, hinner]; rfl)
      exact ⟨start, (trimmed_eq_some_iff start).1 hbody⟩
    · cases h
  obtain ⟨hclosed, name, rfl, hname, hcomplete, rfl⟩ := (splitCall?_eq_some_iff hgap start callee arguments).1 h
  refine ⟨name, gap, by simp, rfl, hgap, hname, ?_, hcomplete⟩
  rw [after_append, hname] at hclosed
  exact hclosed

lemma splitCall?_call_iff (hname : Quoting.after .code name = .code)
    (hgap : ∀ c ∈ gap, isBlank c = true) (arguments : Text) :
    splitCall? (name ++ '(' :: (arguments ++ ')' :: (gap ++ [';']))) = some (trim name, arguments) ↔
      Complete arguments ∧ Quoting.after .code arguments = .code := by
  have hstart : Quoting.after .code (name ++ '(' :: arguments) = Quoting.after .code arguments := by
    rw [after_append, hname]
    rfl
  have hsplit := splitCall?_eq_some_iff hgap (name ++ '(' :: arguments) (trim name) arguments
  rw [hstart, append_assoc, cons_append] at hsplit
  rw [hsplit, and_comm]
  refine and_congr_left fun _ => ⟨?_, fun hcomplete => ⟨name, rfl, hname, hcomplete, rfl⟩⟩
  rintro ⟨_, -, -, hcomplete, -⟩
  exact hcomplete

/-- **A call statement is split** exactly if it consists of a name and complete arguments, no
literal being left open in them; and every call of this kind is split there. -/
theorem call_split_iff (callee arguments : Text) :
    (∀ t, splitCall? t = some (callee, arguments) ↔
      ∃ name, (dropFinal? ';' t).map trimRight = some (name ++ "(" ++ arguments ++ ")") ∧ trim name = callee ∧
        Quoting.after .code name = .code ∧ Quoting.after .code arguments = .code ∧ Complete arguments) ∧
    ∀ name, Quoting.after .code name = .code → Quoting.after .code arguments = .code → Complete arguments →
      splitCall? (name ++ "(" ++ arguments ++ ");") = some (trim name, arguments) := by
  refine ⟨fun t => ⟨fun h => ?_, ?_⟩, fun name hname hclosed hcomplete => ?_⟩
  · obtain ⟨name, gap, rfl, rfl, hgap, hname, hclosed, hcomplete⟩ := splitCall?_parts h
    exact ⟨name, (trimmed_eq_some_iff _).2 ⟨gap, by simp, hgap⟩, rfl, hname, hclosed, hcomplete⟩
  · rintro ⟨name, htrimmed, rfl, hname, hclosed, hcomplete⟩
    obtain ⟨gap, rfl, hgap⟩ := (trimmed_eq_some_iff _).1 htrimmed
    simpa using (splitCall?_call_iff hname hgap arguments).2 ⟨hcomplete, hclosed⟩
  · have hgap : ∀ c ∈ ([] : Text), isBlank c = true := by simp
    simpa using (splitCall?_call_iff hname hgap arguments).2 ⟨hcomplete, hclosed⟩

theorem call_split_iff_chained :
    Quoting.after .code " a(\"(\").b" = .code ∧ Quoting.after .code "c(1), ')'" = .code ∧
      Complete "c(1), ')'" ∧
      splitCall? " a(\"(\").b(c(1), ')');" = some (("a(\"(\").b" : Text), ("c(1), ')'" : Text)) :=
  ⟨rfl, rfl, by decide, (call_split_iff "a(\"(\").b" "c(1), ')'").2 " a(\"(\").b" rfl rfl (by decide)⟩

/-- A call cannot be split: its arguments leave a literal open, or they close it early and open no
other call. -/
def Tangled (arguments : Text) : Prop :=
  Quoting.after .code arguments ≠ .code ∨ ClosedEarly arguments ∧ ¬LeftOpen arguments

lemma splitCall?_call_eq_none_iff (hname : ∀ c ∈ name, isDotted c = true)
    (hgap : ∀ c ∈ gap, isBlank c = true) (arguments : Text) :
    splitCall? (name ++ '(' :: (arguments ++ ')' :: (gap ++ [';']))) = none ↔ Tangled arguments := by
  have hcode : Quoting.after .code name = .code :=
    after_of_forall fun c hc => isQuote_of_isDotted (hname c hc)
  have hafter : ∀ r, Quoting.after .code (name ++ '(' :: r) = Quoting.after .code r := fun r => by
    rw [after_append, hcode]
    rfl
  -- The parenthesis is the one after the name, or one that is left open behind it.
  have hfound : (∃ callee inner, splitCall? (name ++ '(' :: (arguments ++ ')' :: (gap ++ [';']))) =
      some (callee, inner)) ↔
      Quoting.after .code arguments = .code ∧ (Complete arguments ∨ LeftOpen arguments) := by
    have hsplit := splitCall?_eq_some_iff hgap (name ++ '(' :: arguments)
    simp only [hafter, append_assoc, cons_append] at hsplit
    simp only [hsplit, exists_and_left]
    refine and_congr_right fun _ => ⟨?_, ?_⟩
    · rintro ⟨callee, inner, outer, heq, houter, hinner, -⟩
      rcases append_eq_append_iff.1 heq with ⟨between, rfl, hbetween⟩ | ⟨between, rfl, hbetween⟩
      · rcases between with _ | ⟨c, between⟩
        · obtain ⟨-, rfl⟩ := cons.inj hbetween
          exact .inl hinner
        · obtain ⟨rfl, rfl⟩ := cons.inj hbetween
          rw [hafter] at houter
          exact .inr ⟨between, inner, rfl, houter, hinner⟩
      · rcases between with _ | ⟨c, between⟩
        · obtain ⟨-, rfl⟩ := cons.inj hbetween
          exact .inl hinner
        · obtain ⟨rfl, -⟩ := cons.inj hbetween
          exact absurd (hname '(' (by simp)) (by decide)
    · rintro (hcomplete | ⟨outer, inner, rfl, houter, hinner⟩)
      · exact ⟨_, arguments, name, rfl, hcode, hcomplete, rfl⟩
      · exact ⟨_, inner, name ++ '(' :: outer, by simp, by rw [hafter, houter], hinner, rfl⟩
  rw [Tangled, eq_none_iff_forall_ne_some]
  have hcomplete := complete_iff arguments
  constructor
  · intro h
    by_cases hclosed : Quoting.after .code arguments = .code
    · refine .inr ?_
      have hneither : ¬(Complete arguments ∨ LeftOpen arguments) := fun hor => by
        obtain ⟨callee, inner, hsome⟩ := hfound.2 ⟨hclosed, hor⟩
        exact h _ hsome
      tauto
    · exact .inl hclosed
  · rintro h ⟨callee, inner⟩ hsome
    obtain ⟨hclosed, hor⟩ := hfound.1 ⟨callee, inner, hsome⟩
    tauto

end Restage.Java
