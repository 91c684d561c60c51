import Restage.Proofs.Text.Masks
import Restage.Proofs.Text.Readers

/-!
# Where a word stands

A word stands in a text if it occurs there and no word character goes before it or behind it.  The
text refers to the word if that happens in its code, outside of literals (`Refers`).  In a
concatenation whose two parts do not join to a word (`Separate`), a word stands in one part or the
other (`stands_append_iff`), so what a line refers to follows from the parts it is put together
from.

There are two ways to put a line together.  In a `Composed` text fixed pieces that do not have the
word at all alternate with parts that may hold anything; a part may even leave a literal open, and
then what follows is not read as it was meant, but the word comes from a part all the same.  A
`Quiet` piece has the word in its literals only.  It can be put in front of such a text, and parts
that leave nothing open can be put in front of that (`Written`).
-/

namespace Restage.Text

open List

variable {w : Text} {t : Text} {u : Text}

/-! ## Words in texts -/

/-- The word stands in the text behind some start that has a property. -/
def Stands (P : Text → Prop) (w t : Text) : Prop :=
  ∃ x y, t = x ++ (w ++ y) ∧ P x ∧ (∀ c ∈ x.getLast?, isWord c = false) ∧ ∀ c ∈ y.head?, isWord c = false

def HasWord (w t : Text) : Prop := Stands (fun _ => True) w t

def Refers (w t : Text) : Prop := Stands (fun x => Quoting.after .code x = .code) w t

/-- No literal is left open. -/
def IsClosed (t : Text) : Prop := Quoting.after .code t = .code

instance (t : Text) : Decidable (IsClosed t) := inferInstanceAs (Decidable (_ = _))

/-- Two texts do not join to a word. -/
def Separate (t u : Text) : Prop :=
  (∀ c ∈ t.getLast?, isWord c = false) ∨ ∀ c ∈ u.head?, isWord c = false

lemma Stands.mono {P Q : Text → Prop} (h : Stands P w t) (hPQ : ∀ x, P x → Q x) : Stands Q w t := by
  obtain ⟨x, y, ht, hx, hbounds⟩ := h
  exact ⟨x, y, ht, hPQ x hx, hbounds⟩

lemma Refers.hasWord (h : Refers w t) : HasWord w t := h.mono fun _ _ => trivial

lemma HasWord.infix (h : HasWord w t) : w <:+: t := by
  obtain ⟨x, y, rfl, -⟩ := h
  exact ⟨x, y, by simp⟩

/-- **A word does not cross the border** of separate texts. -/
lemma Separate.exists_of_append_eq (hw : isWordText w = true) {x y : Text} (h : Separate t u)
    (heq : t ++ u = x ++ (w ++ y)) :
    (∃ y', t = x ++ (w ++ y') ∧ y = y' ++ u) ∨ ∃ x', x = t ++ x' ∧ u = x' ++ (w ++ y) := by
  rcases append_eq_append_iff.1 heq with ⟨x', rfl, rfl⟩ | ⟨v, rfl, hrest⟩
  · exact .inr ⟨x', rfl, rfl⟩
  rcases append_eq_append_iff.1 hrest with ⟨y', rfl, rfl⟩ | ⟨v', rfl, rfl⟩
  · exact .inl ⟨y', rfl, rfl⟩
  -- The word starts in the first text and ends in the second one, or at the border.
  have hword := forall_mem_append.1 (all_isWord hw)
  rcases eq_nil_or_concat' v with rfl | ⟨v, c, rfl⟩
  · exact .inr ⟨[], by simp, rfl⟩
  rcases v' with _ | ⟨d, v'⟩
  · exact .inl ⟨[], by simp, rfl⟩
  rcases h with h | h
  · have hnot := h c (by rw [← append_assoc, getLast?_concat]; rfl)
    rw [hword.1 c (by simp)] at hnot
    cases hnot
  · have hnot := h d rfl
    rw [hword.2 d mem_cons_self] at hnot
    cases hnot

/-- **A word stands in a concatenation** of separate texts exactly if it stands in one of them. -/
lemma stands_append_iff (hw : isWordText w = true) {P : Text → Prop} (h : Separate t u) :
    Stands P w (t ++ u) ↔ Stands P w t ∨ Stands (fun x => P (t ++ x)) w u := by
  have hword := all_isWord hw
  obtain ⟨first, rest, hcons, hfirst⟩ := exists_cons_of_isWordText hw
  constructor
  · rintro ⟨x, y, heq, hx, hbefore, hafter⟩
    rcases h.exists_of_append_eq hw heq with ⟨y', rfl, rfl⟩ | ⟨x', rfl, rfl⟩
    · refine .inl ⟨x, y', rfl, hx, hbefore, fun c hc => hafter c ?_⟩
      rw [head?_append, Option.mem_def.1 hc]
      rfl
    · refine .inr ⟨x', y, rfl, hx, fun c hc => hbefore c ?_, hafter⟩
      rw [getLast?_append, Option.mem_def.1 hc]
      rfl
  · rintro (⟨x, y, rfl, hx, hbefore, hafter⟩ | ⟨x, y, rfl, hx, hbefore, hafter⟩)
    · refine ⟨x, y ++ u, by simp, hx, hbefore, fun c hc => ?_⟩
      rcases y with _ | ⟨d, y⟩
      · have hne : w ≠ [] := by simp [hcons]
        refine h.resolve_left (fun hlast => ?_) c hc
        have hnot := hlast (w.getLast hne) (by
          rw [append_nil, getLast?_append, getLast?_eq_some_getLast hne]
          rfl)
        rw [hword _ (getLast_mem hne)] at hnot
        cases hnot
      · exact hafter c hc
    · refine ⟨t ++ x, y, by simp, hx, fun c hc => ?_, hafter⟩
      rcases eq_nil_or_concat' x with rfl | ⟨x', d, rfl⟩
      · refine h.resolve_right (fun hhead => ?_) c (by simpa using hc)
        have hnot := hhead first (by rw [hcons]; rfl)
        rw [hfirst] at hnot
        cases hnot
      · rw [← append_assoc, getLast?_concat] at hc
        exact hbefore c (by rwa [getLast?_concat])

lemma hasWord_append_iff (hw : isWordText w = true) (h : Separate t u) :
    HasWord w (t ++ u) ↔ HasWord w t ∨ HasWord w u :=
  stands_append_iff hw h

lemma refers_append_iff (hw : isWordText w = true) (hclosed : IsClosed t) (h : Separate t u) :
    Refers w (t ++ u) ↔ Refers w t ∨ Refers w u := by
  have hafter : ∀ x, Quoting.after .code (t ++ x) = Quoting.after .code x := fun x => by
    rw [after_append, hclosed]
  rw [Refers, stands_append_iff hw h, Refers, Refers]
  simp only [hafter]

/-! ## Quiet texts -/

/-- No literal is left open, and the letters of the word do not stand in the code. -/
structure Quiet (w t : Text) : Prop where
  closed : IsClosed t
  free : ∀ x y, t = x ++ (w ++ y) → Quoting.after .code x ≠ .code

lemma Quiet.not_refers (h : Quiet w t) : ¬Refers w t := by
  rintro ⟨x, y, ht, hx, -⟩
  exact h.free x y ht hx

lemma quiet_of_not_mem_mask {c : Char} {r : Text} (hc : isQuote c = false) (hclosed : IsClosed t)
    (h : c ∉ mask t) : Quiet (c :: r) t := by
  refine ⟨hclosed, fun x y ht hx => h ?_⟩
  rw [ht, cons_append, mask_append_cons hc hx]
  simp

lemma quiet_of_not_infix (hclosed : IsClosed t) (h : ¬w <:+: t) : Quiet w t :=
  ⟨hclosed, fun x y ht _ => h ⟨x, y, by rw [ht, append_assoc]⟩⟩

lemma Quiet.append (hw : isWordText w = true) (ht : Quiet w t) (hu : Quiet w u) (h : Separate t u) : Quiet w (t ++ u) := by
  refine ⟨by rw [IsClosed, after_append, ht.closed, hu.closed], fun x y heq hx => ?_⟩
  rcases h.exists_of_append_eq hw heq with ⟨y', rfl, -⟩ | ⟨x', rfl, rfl⟩
  · exact ht.free x y' rfl hx
  · rw [after_append, ht.closed] at hx
    exact hu.free x' y rfl hx

/-! ## Lines and their parts -/

/-- A text is put together from fixed pieces without the word and the given parts. -/
structure Composed (w : Text) (parts : List Text) (t : Text) : Prop where
  hasWord : HasWord w t → ∃ p ∈ parts, HasWord w p
  closed : (∀ p ∈ parts, IsClosed p) → IsClosed t
  refers : (∀ p ∈ parts, IsClosed p) → (Refers w t ↔ ∃ p ∈ parts, Refers w p)

namespace Composed

variable {parts parts' : List Text} {t u : Text}

lemma part (p : Text) : Composed w [p] p :=
  ⟨fun h => ⟨p, mem_singleton_self p, h⟩, fun h => h p (mem_singleton_self p), fun _ => by simp⟩

lemma fixed (hclosed : IsClosed t) (h : ¬w <:+: t) : Composed w [] t :=
  ⟨fun hword => absurd hword.infix h, fun _ => hclosed,
    fun _ => iff_of_false (fun hword => h hword.hasWord.infix) (by simp)⟩

variable (hw : isWordText w = true)
include hw

lemma append (ht : Composed w parts t) (hu : Composed w parts' u) (h : Separate t u) :
    Composed w (parts ++ parts') (t ++ u) := by
  have hexists : ∀ Q : Text → Prop, (∃ p ∈ parts ++ parts', Q p) ↔ (∃ p ∈ parts, Q p) ∨ ∃ p ∈ parts', Q p := by
    intro Q
    simp only [mem_append, or_and_right, exists_or]
  refine ⟨fun hword => ?_, fun hparts => ?_, fun hparts => ?_⟩
  · rw [hexists]
    exact ((hasWord_append_iff hw h).1 hword).imp ht.hasWord hu.hasWord
  · rw [forall_mem_append] at hparts
    rw [IsClosed, after_append, ht.closed hparts.1, hu.closed hparts.2]
  · rw [forall_mem_append] at hparts
    rw [refers_append_iff hw (ht.closed hparts.1) h, ht.refers hparts.1, hu.refers hparts.2, hexists]

lemma lead (c : Text) (hu : Composed w parts u) (hclosed : IsClosed c) (hfree : ¬w <:+: c)
    (hlast : ∀ d ∈ c.getLast?, isWord d = false) : Composed w parts (c ++ u) :=
  (fixed hclosed hfree).append hw hu (.inl hlast)

lemma next (p : Text) (hu : Composed w parts u) (hhead : ∀ d ∈ u.head?, isWord d = false) :
    Composed w (p :: parts) (p ++ u) :=
  (part p).append hw hu (.inr hhead)

lemma join (hcomma : ¬w <:+: ", ") (parts : List Text) : Composed w parts (join ", " parts) := by
  induction parts with
  | nil =>
    obtain ⟨c, r, rfl, -⟩ := exists_cons_of_isWordText hw
    refine fixed rfl fun h => ?_
    cases eq_nil_of_infix_nil h
  | cons p parts ih =>
    cases parts with
    | nil =>
      have hjoin : Text.join ", " [p] = p := intercalate_singleton
      rw [hjoin]
      exact part p
    | cons q parts =>
      exact (ih.lead hw _ (by decide) hcomma (by decide)).next hw p (by rintro d ⟨⟩; decide)

end Composed

/-- A line has the word in its code because of the given parts. -/
structure Written (w : Text) (parts : List Text) (t : Text) : Prop where
  hasWord : Refers w t → ∃ p ∈ parts, HasWord w p
  refers : (∀ p ∈ parts, IsClosed p) → (Refers w t ↔ ∃ p ∈ parts, Refers w p)

namespace Written

variable {parts : List Text} {t u : Text}

lemma of_composed (h : Composed w parts t) : Written w parts t := ⟨fun ht => h.hasWord ht.hasWord, h.refers⟩

lemma behind (hw : isWordText w = true) (ht : Quiet w t) (hu : Written w parts u) (h : Separate t u) :
    Written w parts (t ++ u) := by
  have hiff : Refers w (t ++ u) ↔ Refers w u := by
    rw [refers_append_iff hw ht.closed h]
    exact or_iff_right ht.not_refers
  exact ⟨fun href => hu.hasWord (hiff.1 href), fun hparts => hiff.trans (hu.refers hparts)⟩

lemma behind_part (hw : isWordText w = true) {p : Text} (hp : IsClosed p) (hu : Written w parts u)
    (h : Separate p u) : Written w (p :: parts) (p ++ u) := by
  have hiff := refers_append_iff hw hp h
  refine ⟨fun href => ?_, fun hparts => ?_⟩
  · rcases hiff.1 href with href | href
    · exact ⟨p, mem_cons_self, href.hasWord⟩
    · obtain ⟨q, hq, hword⟩ := hu.hasWord href
      exact ⟨q, mem_cons_of_mem _ hq, hword⟩
  · rw [hiff, hu.refers (forall_mem_cons.1 hparts).2, exists_mem_cons_iff]

end Written

end Restage.Text
