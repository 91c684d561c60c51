import Mathlib.Data.List.Nodup
import Restage.Java.Statement
import Restage.Proofs.Text.Trimming

/-!
# Lines of statements

Every diagnostic and every method body rests on the reader's bookkeeping of lines.  This module
shows that the bookkeeping is exact: the reader loses no line but blank ones, takes no line twice
and keeps their order, and the line numbers of a statement are those of the lines it is made of.

The reader is followed one line at a time.  `Holds` says which numbered lines a reading has in hand,
`step_cases` says the three things that can happen to one more line (it is taken in, it completes a
statement, or it is blank and passed over), and `statements_spans` carries this through a whole
document by induction on the lines that remain.
-/

namespace Restage.Java

open Text List

variable {n : Nat} {s : Statement} {lines : List Text} {line : Text}

/-! ## Trimmed lines -/

/-- Whether a line is blank: nothing is left of it when it is trimmed. -/
def isBlankLine (line : Text) : Bool := (trim line).isEmpty

lemma trim_eq_nil_of_stripLineComment (h : (stripLineComment (trim line)).isEmpty = true) : trim line = [] := by
  cases ht : trim line with
  | nil => rfl
  | cons c r =>
    rw [ht, stripLineComment] at h
    split at h
    · rw [length_cons, take_succ_cons, trimRight_cons (isBlank_head_of_trim ht)] at h
      cases h
    · cases h

/-! ## What a statement spans -/

/-- `kept` is what remains of `all` when some of the items that satisfy `p` are left out, and
nothing else: the order is kept, and so is every item that does not satisfy `p`. -/
def LeavesOut {α : Type} (p : α → Bool) (kept all : List α) : Prop :=
  kept.Sublist all ∧ kept.filter (!p ·) = all.filter (!p ·)

namespace LeavesOut

variable {α β : Type} {p : α → Bool} {kept all kept' all' : List α}

lemma refl (p : α → Bool) (xs : List α) : LeavesOut p xs xs := ⟨Sublist.refl xs, rfl⟩

lemma append (h : LeavesOut p kept all) (h' : LeavesOut p kept' all') :
    LeavesOut p (kept ++ kept') (all ++ all') := by
  refine ⟨h.1.append h'.1, ?_⟩
  rw [filter_append, filter_append, h.2, h'.2]

lemma middle {x : α} {later : List α} (hx : p x = true) (h : LeavesOut p kept (all ++ later)) :
    LeavesOut p kept (all ++ x :: later) := by
  refine ⟨h.1.trans ((Sublist.refl all).append (sublist_cons_self x later)), ?_⟩
  rw [h.2, filter_append, filter_append, filter_cons_of_neg (by simp [hx])]

lemma map {q : β → Bool} {f : α → β} (hf : ∀ x, q (f x) = p x) (h : LeavesOut p kept all) :
    LeavesOut q (kept.map f) (all.map f) := by
  have hcomp : (fun y => !q y) ∘ f = fun x => !p x := by
    funext x
    simp [hf]
  refine ⟨h.1.map f, ?_⟩
  rw [filter_map, filter_map, hcomp, h.2]

end LeavesOut

/-- A statement spans a group of numbered lines: they are its raw lines, it is numbered by the first
of them, their numbers lie between its own, and none of them is blank unless the statement is a
block comment. -/
structure Spans (s : Statement) (group : List (Text × Nat)) : Prop where
  raw : s.rawLines = group.map Prod.fst
  first : group.head?.map Prod.snd = some s.line
  between : ∀ p ∈ group, s.line ≤ p.2 ∧ p.2 ≤ s.endLine
  blanks : startsWith "/*" s.text = true ∨ ∀ p ∈ group, isBlankLine p.1 = false

variable {group held : List (Text × Nat)} {ss : List Statement} {groups : List (List (Text × Nat))}
  {number : Nat} {reading : Reading} {start : Nat}

lemma Spans.exists_mem (h : Spans s group) : ∃ p ∈ group, p.2 = s.line := by
  obtain ⟨p, hp, hs⟩ := Option.map_eq_some_iff.1 h.first
  exact ⟨p, mem_of_mem_head? hp, hs⟩

lemma Spans.line_le_endLine (h : Spans s group) : s.line ≤ s.endLine := by
  obtain ⟨p, hp, -⟩ := h.exists_mem
  exact Nat.le_trans (h.between p hp).1 (h.between p hp).2

lemma rawLines_of_spans (hs : Forall₂ Spans ss groups) :
    ss.flatMap Statement.rawLines = groups.flatten.map Prod.fst := by
  induction hs with
  | nil => rfl
  | cons hspan _ ih =>
    rw [flatMap_cons, flatten_cons, map_append, hspan.raw, ih]

lemma le_line_of_spans (hs : Forall₂ Spans ss groups)
    (hsub : groups.flatten.Sublist (lines.zipIdx n)) : ∀ s ∈ ss, n ≤ s.line := by
  induction hs with
  | nil => simp
  | @cons s group ss groups hspan _ ih =>
    obtain ⟨p, hp, hline⟩ := hspan.exists_mem
    have hfirst : n ≤ p.2 := le_snd_of_mem_zipIdx (hsub.subset (mem_append_left _ hp))
    have hlater := ih ((sublist_append_right _ _).trans hsub)
    intro t ht
    rcases mem_cons.1 ht with rfl | ht
    · exact hline ▸ hfirst
    · exact hlater t ht

/-! ## What a reading has in hand -/

/-- Lines in hand belong to one statement that starts at `start`: they are its raw lines so far, and
their numbers lie between `start` and the number of the line to come. -/
structure Gathered (start number : Nat) (raw : List Text) (held : List (Text × Nat)) : Prop where
  raw : raw = held.map Prod.fst
  first : held.head?.map Prod.snd = some start
  between : ∀ p ∈ held, start ≤ p.2 ∧ p.2 < number

/-- The numbered lines that a reading has in hand before the line with the given number.  Code has
no blank lines; a block comment shows its opening in the first of its parts. -/
def Reading.Holds (number : Nat) (held : List (Text × Nat)) : Reading → Prop
  | .idle => held = []
  | .code start _ raw _ =>
    Gathered start number raw held ∧ ∀ p ∈ held, isBlankLine p.1 = false
  | .comment start parts raw =>
    Gathered start number raw held ∧
      ∃ part rest, parts = part :: rest ∧ startsWith "/*" part = true

namespace Gathered

variable {start number : Nat} {raw : List Text} {held : List (Text × Nat)}

lemma singleton (number : Nat) (line : Text) :
    Gathered number (number + 1) [line] [(line, number)] where
  raw := rfl
  first := rfl
  between := by simp

lemma append (h : Gathered start number raw held) (line : Text) :
    Gathered start (number + 1) (raw ++ [line]) (held ++ [(line, number)]) := by
  obtain ⟨q, hq, hstart⟩ := Option.map_eq_some_iff.1 h.first
  have hle : start ≤ number := by
    have := h.between q (mem_of_mem_head? hq)
    omega
  refine ⟨by rw [h.raw, map_append]; rfl, ?_, ?_⟩
  · rw [head?_append, hq]
    exact congrArg some hstart
  · intro p hp
    rcases mem_append.1 hp with hp | hp
    · have := h.between p hp
      omega
    · rw [mem_singleton.1 hp]
      exact ⟨hle, Nat.lt_succ_self number⟩

lemma mono {later : Nat} (h : Gathered start number raw held) (hle : number ≤ later) :
    Gathered start later raw held where
  raw := h.raw
  first := h.first
  between p hp := ⟨(h.between p hp).1, Nat.lt_of_lt_of_le (h.between p hp).2 hle⟩

lemma spans (h : Gathered start (number + 1) raw held) {parts : List Text}
    (hb : startsWith "/*" (Reading.statement start number parts raw).text = true ∨
      ∀ p ∈ held, isBlankLine p.1 = false) :
    Spans (Reading.statement start number parts raw) held where
  raw := h.raw
  first := h.first
  between p hp := ⟨(h.between p hp).1, Nat.le_of_lt_succ (h.between p hp).2⟩
  blanks := hb

end Gathered

lemma Reading.Holds.succ (h : reading.Holds number held) : reading.Holds (number + 1) held := by
  cases reading with
  | idle => exact h
  | code start parts raw depth => exact ⟨h.1.mono (Nat.le_succ number), h.2⟩
  | comment start parts raw => exact ⟨h.1.mono (Nat.le_succ number), h.2⟩

/-! ## One line -/

/-- A line was taken in: the reading has it in hand, or it completed a statement. -/
def TakenIn (number : Nat) (group : List (Text × Nat)) (next : Reading × Option Statement) : Prop :=
  (next.2 = none ∧ next.1.Holds (number + 1) group) ∨
    ∃ s, next = (.idle, some s) ∧ Spans s group ∧ s.endLine = number

lemma startsWith_join_of_cons {start part : Text} {rest : List Text} (hpart : part ≠ [])
    (h : startsWith start part = true) :
    startsWith start (join " " ((part :: rest).filter (!·.isEmpty))) = true := by
  rw [filter_cons_of_pos (by simpa using hpart)]
  rw [startsWith, isPrefixOf_iff_prefix] at h ⊢
  cases hr : rest.filter (!·.isEmpty) with
  | nil => simpa [join] using h
  | cons p ps =>
    exact h.trans (prefix_append part _)

lemma takeCode_takenIn {parts raw : List Text} {depth : Int} (hline : isBlankLine line = false)
    (hheld : Gathered start (number + 1) (raw ++ [line]) (held ++ [(line, number)]))
    (hblank : ∀ p ∈ held, isBlankLine p.1 = false) :
    TakenIn number (held ++ [(line, number)])
      (Reading.takeCode number line (trim line) start parts raw depth) := by
  have hcode : (stripLineComment (trim line)).isEmpty = false := by
    by_contra h
    rw [isBlankLine, trim_eq_nil_of_stripLineComment (by simpa using h)] at hline
    cases hline
  have hall : ∀ p ∈ held ++ [(line, number)], isBlankLine p.1 = false := by
    intro p hp
    rcases mem_append.1 hp with hp | hp
    · exact hblank p hp
    · rw [mem_singleton.1 hp]
      exact hline
  rw [Reading.takeCode]
  simp only [hcode, Bool.false_eq_true, if_false]
  split_ifs
  · exact Or.inl ⟨rfl, hheld, hall⟩
  · exact Or.inr ⟨_, rfl, hheld.spans (Or.inr hall), rfl⟩
  · exact Or.inl ⟨rfl, hheld, hall⟩

lemma takeComment_takenIn {parts raw : List Text}
    (hheld : Gathered start (number + 1) (raw ++ [line]) (held ++ [(line, number)]))
    (hopen : ∃ part rest, parts ++ [trim line] = part :: rest ∧ startsWith "/*" part = true) :
    TakenIn number (held ++ [(line, number)])
      (Reading.takeComment number line (trim line) start parts raw) := by
  rw [Reading.takeComment]
  split_ifs
  · refine Or.inr ⟨_, rfl, hheld.spans (Or.inl ?_), rfl⟩
    obtain ⟨part, rest, hparts, hpart⟩ := hopen
    rw [hparts]
    apply startsWith_join_of_cons _ hpart
    rintro rfl
    cases hpart
  · exact Or.inl ⟨rfl, hheld, hopen⟩

/-- **One line.**  The reader takes the line in, or passes over it without any other change; it
passes over blank lines only. -/
lemma step_cases (h : reading.Holds number held) (line : Text) :
    TakenIn number (held ++ [(line, number)]) (reading.step number line) ∨
      (reading.step number line = (reading, none) ∧ isBlankLine line = true) := by
  cases reading with
  | comment start parts raw =>
    obtain ⟨hheld, part, rest, rfl, hpart⟩ := h
    exact Or.inl (takeComment_takenIn (hheld.append line) ⟨part, rest ++ [trim line], rfl, hpart⟩)
  | code start parts raw depth =>
    obtain ⟨hheld, hblank⟩ := h
    cases hline : isBlankLine line with
    | false => exact Or.inl (takeCode_takenIn hline (hheld.append line) hblank)
    | true =>
      have hnil : trim line = [] := isEmpty_iff.1 hline
      refine Or.inr ⟨?_, rfl⟩
      simp only [Reading.step, hnil]
      rfl
  | idle =>
    have hnil : held = [] := h
    subst hnil
    cases hline : isBlankLine line with
    | true =>
      refine Or.inr ⟨?_, rfl⟩
      rw [isBlankLine] at hline
      simp only [Reading.step, hline, if_true]
    | false =>
      refine Or.inl ?_
      have hne : (trim line).isEmpty = false := hline
      simp only [Reading.step, hne, Bool.false_eq_true, if_false]
      split_ifs with hslashes hopen
      · -- A line comment is a statement of its own.
        refine Or.inr ⟨_, rfl, ⟨rfl, rfl, by simp, Or.inr (by simpa using hline)⟩, rfl⟩
      · exact takeComment_takenIn (.singleton number line) ⟨_, [], rfl, hopen⟩
      · exact takeCode_takenIn hline (.singleton number line) (by simp)

/-! ## A whole document -/

/-- The statements that the remaining lines and those in hand give: each spans its own group of
numbered lines, the groups hold every line that is not blank in order, and a statement ends before
the next one starts. -/
structure Covers (ss : List Statement) (lines : List (Text × Nat)) : Prop where
  exists_groups : ∃ groups, List.Forall₂ Spans ss groups ∧
    LeavesOut (isBlankLine ·.1) groups.flatten lines
  ordered : ss.Pairwise fun s t => s.endLine < t.line

lemma finish_covers (h : reading.Holds number held) : Covers (reading.finish (number - 1)).toList held := by
  have hgroup : ∀ s, Spans s held → Covers [s] held := fun s hs =>
    ⟨⟨[held], .cons hs .nil, by simpa using LeavesOut.refl _ held⟩, by simp⟩
  have hnumber : number ≤ number - 1 + 1 := by omega
  cases reading with
  | idle =>
    have hnil : held = [] := h
    subst hnil
    exact ⟨⟨[], .nil, LeavesOut.refl _ []⟩, Pairwise.nil⟩
  | code start parts raw depth => exact hgroup _ ((h.1.mono hnumber).spans (Or.inr h.2))
  | comment start parts raw =>
    obtain ⟨hheld, part, rest, rfl, hpart⟩ := h
    refine hgroup _ ((hheld.mono hnumber).spans (Or.inl ?_))
    apply startsWith_join_of_cons _ hpart
    rintro rfl
    cases hpart

/-- The reader covers the lines in hand and those to come, by induction on the latter. -/
lemma statements_covers (lines : List Text) (h : reading.Holds number held) :
    Covers (reading.statements number lines) (held ++ lines.zipIdx number) := by
  induction lines generalizing number held reading with
  | nil => simpa [Reading.statements] using finish_covers h
  | cons line rest ih =>
    have hsplit : held ++ (line :: rest).zipIdx number =
        (held ++ [(line, number)]) ++ rest.zipIdx (number + 1) := by
      simp [zipIdx_cons]
    rcases step_cases h line with (⟨hnone, hnext⟩ | ⟨s, hstep, hspan, hend⟩) | ⟨hstep, hline⟩
    · -- The line is in hand.
      rw [Reading.statements]
      simpa [hnone] using ih hnext
    · -- The line completes a statement, and the reader starts afresh after it.
      have hidle : Reading.idle.Holds (number + 1) [] := rfl
      obtain ⟨⟨groups, hspans, hleft⟩, hordered⟩ := ih hidle
      rw [hsplit, Reading.statements, hstep]
      refine ⟨⟨(held ++ [(line, number)]) :: groups, .cons hspan hspans, ?_⟩, ?_⟩
      · exact (LeavesOut.refl _ _).append hleft
      · refine pairwise_cons.2 ⟨fun t ht => ?_, hordered⟩
        have := le_line_of_spans hspans hleft.1 t ht
        omega
    · -- The line is blank and passed over; it stands among the lines to cover all the same.
      obtain ⟨⟨groups, hspans, hleft⟩, hordered⟩ := ih h.succ
      rw [Reading.statements, hstep]
      exact ⟨⟨groups, hspans, hleft.middle hline⟩, hordered⟩

/-- A line that is not blank stands in exactly one group: it is in one since only blank lines are
left out, and in no other since no numbered line occurs twice. -/
lemma existsUnique_group (h : LeavesOut (isBlankLine ·.1) groups.flatten (lines.zipIdx n))
    {p : Text × Nat} (hp : p ∈ lines.zipIdx n) (hline : isBlankLine p.1 = false) :
    ∃! i : Nat, ∃ group, groups[i]? = some group ∧ p ∈ group := by
  have hnodup : groups.flatten.Nodup := by
    apply Nodup.sublist h.1
    apply Nodup.of_map Prod.snd
    rw [zipIdx_map_snd]
    exact nodup_range'
  have hdisjoint := (nodup_flatten.1 hnodup).2
  have hkept : p ∈ groups.flatten.filter fun p => !isBlankLine p.1 := by
    rw [h.2]
    exact mem_filter.2 ⟨hp, by simp [hline]⟩
  obtain ⟨group, hgroup, hmem⟩ := mem_flatten.1 (mem_filter.1 hkept).1
  obtain ⟨i, hi⟩ := mem_iff_getElem?.1 hgroup
  refine ⟨i, ⟨group, hi, hmem⟩, ?_⟩
  rintro j ⟨group', hj, hmem'⟩
  have hapart := pairwise_iff_getElem.1 hdisjoint
  obtain ⟨hi', hgi⟩ := List.getElem?_eq_some_iff.1 hi
  obtain ⟨hj', hgj⟩ := List.getElem?_eq_some_iff.1 hj
  rcases Nat.lt_trichotomy i j with hlt | heq | hgt
  · exact (hapart i j hi' hj' hlt (hgi ▸ hmem) (hgj ▸ hmem')).elim
  · exact heq.symm
  · exact (hapart j i hj' hi' hgt (hgj ▸ hmem') (hgi ▸ hmem)).elim

/-- **No line is lost, doubled or moved.**  The raw lines of the statements of a document, in order,
are the lines of the document with only blank lines left out; a blank line stays in a block comment
only.  Each statement spans a group of numbered lines of the document: it is numbered by the first
of them, it does not end before it starts, its lines lie between its two numbers, and it ends before
the next one starts.  Every line that is not blank stands in exactly one of the groups. -/
theorem statements_partition_lines (d : Document) :
    LeavesOut isBlankLine (d.statements.flatMap Statement.rawLines) d.lines ∧
      (∀ s ∈ d.statements, s.line ≤ s.endLine) ∧
      (∃ groups, List.Forall₂ Spans d.statements groups ∧
        LeavesOut (isBlankLine ·.1) groups.flatten (d.lines.zipIdx 1) ∧
        ∀ p ∈ d.lines.zipIdx 1, isBlankLine p.1 = false →
          ∃! i : Nat, ∃ group, groups[i]? = some group ∧ p ∈ group) ∧
      d.statements.Pairwise fun s t => s.endLine < t.line := by
  have hidle : Reading.idle.Holds 1 [] := rfl
  have hcovers : Covers d.statements (d.lines.zipIdx 1) := statements_covers d.lines hidle
  obtain ⟨⟨groups, hspans, hleft⟩, hordered⟩ := hcovers
  refine ⟨?_, ?_, ⟨groups, hspans, hleft, fun p => existsUnique_group hleft⟩, hordered⟩
  · rw [rawLines_of_spans hspans]
    have hnumbered : (d.lines.zipIdx 1).map Prod.fst = d.lines := List.zipIdx_map_fst 1 d.lines
    rw [← hnumbered]
    exact hleft.map fun _ => rfl
  · have hboth := hspans.imp fun s group h => And.intro h.line_le_endLine h
    exact ((List.forall₂_and_left _ _).1 hboth).1

end Restage.Java
