import Restage.Proofs.Text.WordOccurrences

/-!
# Texts that are derived from others

A text is derived from another one by keeping characters, by exchanging pieces and by dropping
single characters (`Derived`).  A reader of literals goes over both texts in the same states.  What
is exchanged brings in no word of its own and does not join to the word with what is around it
(`Swaps`), and a character is dropped only where the two sides of it do not join.  So the derived
text refers to the word only if the text it comes from does (`Derived.refers`).
-/

namespace Restage.Text

open List

variable {w : Text} {t : Text} {s : Quoting} {before : Option Char}

/-- The word stands in the code of a text that is read from some state on, behind some character. -/
def RefersFrom (s : Quoting) (before : Option Char) (w t : Text) : Prop :=
  Stands (fun x => s.after x = .code ∧ (x = [] → ∀ c ∈ before, isWord c = false)) w t

lemma refersFrom_code_none : RefersFrom .code none w t ↔ Refers w t :=
  ⟨fun h => h.mono fun _ hx => hx.1, fun h => h.mono fun _ hx => ⟨hx, by simp⟩⟩

lemma RefersFrom.of_before {before' : Option Char} (h : RefersFrom s before w t)
    (hbefore : ∀ c ∈ before', isWord c = false) : RefersFrom s before' w t :=
  h.mono fun _ hx => ⟨hx.1, fun _ => hbefore⟩

lemma RefersFrom.append {a : Text} (ha : a ≠ []) (h : RefersFrom (s.after a) a.getLast? w t) :
    RefersFrom s before w (a ++ t) := by
  obtain ⟨x, y, rfl, ⟨hx, hstart⟩, hbefore, hafter⟩ := h
  refine ⟨a ++ x, y, by simp, ⟨by rw [after_append, hx], by simp [ha]⟩, fun c hc => ?_, hafter⟩
  rcases eq_nil_or_concat' x with rfl | ⟨x', d, rfl⟩
  · exact hstart rfl c (by simpa using hc)
  · rw [← append_assoc, getLast?_concat] at hc
    exact hbefore c (by rwa [getLast?_concat])

/-! ## Derivations -/

/-- A piece of text is exchanged for another one without a trace of the word.  Both are read to the
same state, and at both ends they have a word character or not alike. -/
structure Swaps (w : Text) (s : Quoting) (old new : Text) : Prop where
  after : s.after new = s.after old
  head : ∃ c d, old.head? = some c ∧ new.head? = some d ∧ isWord c = isWord d ∧ d ∉ w
  last : ∃ c d, old.getLast? = some c ∧ new.getLast? = some d ∧ isWord c = isWord d ∧ d ∉ w
  free : ∀ x y, new = x ++ (w ++ y) → s.after x ≠ .code

lemma after_eq_settled (hs : s.Proper) (hne : t ≠ []) (ht : ∀ c ∈ t, isQuote c = false ∧ c ≠ '\\') :
    s.after t = s.settled := by
  have hstep : ∀ c ∈ t, s.step c = s.settled ∧ s.settled.step c = s.settled := fun c hc =>
    Quoting.step_settled hs (ht c hc).1 (ht c hc).2
  have hstay : ∀ u : Text, (∀ c ∈ u, s.settled.step c = s.settled) → s.settled.after u = s.settled := by
    intro u hu
    induction u with
    | nil => rfl
    | cons c u ih =>
      rw [forall_mem_cons] at hu
      rw [Quoting.after, foldl_cons, hu.1]
      exact ih hu.2
  obtain ⟨c, u, rfl⟩ := exists_cons_of_ne_nil hne
  rw [Quoting.after, foldl_cons, (hstep c mem_cons_self).1]
  exact hstay u fun d hd => (hstep d (mem_cons_of_mem c hd)).2

/-- Pieces without quotes and backslashes can be exchanged in every state. -/
@[mk_iff]
structure PlainSwap (w old new : Text) : Prop where
  plain : ∀ c ∈ old ++ new, isQuote c = false ∧ c ≠ '\\'
  ne_nil : new ≠ []
  heads : old.head?.map isWord = new.head?.map isWord ∧ ∀ d ∈ new.head?, d ∉ w
  lasts : old.getLast?.map isWord = new.getLast?.map isWord ∧ ∀ d ∈ new.getLast?, d ∉ w
  free : ¬w <:+: new

instance (w old new : Text) : Decidable (PlainSwap w old new) := decidable_of_iff' _ (plainSwap_iff w old new)

lemma PlainSwap.swaps {old new : Text} (h : PlainSwap w old new) (hs : s.Proper) : Swaps w s old new := by
  have hends : ∀ {o o' : Option Char}, o' ≠ none → o.map isWord = o'.map isWord ∧ (∀ d ∈ o', d ∉ w) →
      ∃ c d, o = some c ∧ o' = some d ∧ isWord c = isWord d ∧ d ∉ w := by
    rintro (_ | c) (_ | d) hne ⟨hmap, hnot⟩
    · exact absurd rfl hne
    · cases hmap
    · exact absurd rfl hne
    · exact ⟨c, d, rfl, rfl, Option.some.inj hmap, hnot d rfl⟩
  obtain ⟨hold, hnew⟩ := forall_mem_append.1 h.plain
  have hhead := hends (by simpa using h.ne_nil) h.heads
  refine ⟨?_, hhead, hends (by simpa using h.ne_nil) h.lasts, fun x y hxy _ => h.free ⟨x, y, by simp [hxy]⟩⟩
  have hne : old ≠ [] := by
    rintro rfl
    obtain ⟨c, -, hc, -⟩ := hhead
    cases hc
  rw [after_eq_settled hs h.ne_nil hnew, after_eq_settled hs hne hold]

/-- A text and what is derived from it, both read from the given state. -/
inductive Derived (w : Text) : Quoting → Text → Text → Prop
  | nil {s : Quoting} : Derived w s [] []
  | keep {s : Quoting} {c : Char} {t u : Text} : Derived w (s.step c) t u → Derived w s (c :: t) (c :: u)
  | swap {s : Quoting} {old new t u : Text} : Swaps w s old new → Derived w (s.after old) t u →
      Derived w s (old ++ t) (new ++ u)
  | drop {s : Quoting} {c : Char} {t u : Text} : isWord c = false → s.step c = s →
      (s = .code → ∀ d ∈ t.head?, isWord d = false) → Derived w s t u → Derived w s (c :: t) u

namespace Derived

variable {s : Quoting} {t u : Text}

lemma append (a : Text) (h : Derived w (s.after a) t u) : Derived w s (a ++ t) (a ++ u) := by
  induction a generalizing s with
  | nil => exact h
  | cons c a ih => exact .keep (ih h)

lemma after_eq (h : Derived w s t u) : s.after u = s.after t := by
  induction h with
  | nil => rfl
  | keep _ ih => exact ih
  | swap hswaps _ ih => rw [after_append, after_append, hswaps.after, ih]
  | @drop s c t u _ hstep _ _ ih =>
    rw [ih]
    exact congrArg (Quoting.after · t) hstep.symm

lemma head_source (h : Derived w s t u) (hu : ∀ c ∈ u.head?, isWord c = false) :
    ∀ c ∈ t.head?, isWord c = false := by
  cases h with
  | nil => exact hu
  | keep => exact hu
  | swap hswaps =>
    obtain ⟨c, d, hc, hd, hsame, -⟩ := hswaps.head
    intro e he
    rw [head?_append, hc] at he
    cases he
    rw [hsame]
    exact hu d (by rw [head?_append, hd]; rfl)
  | drop hc =>
    rintro _ ⟨⟩
    exact hc

lemma head_derived (h : Derived w s t u) (hs : s = .code) (ht : ∀ c ∈ t.head?, isWord c = false) :
    ∀ c ∈ u.head?, isWord c = false := by
  induction h with
  | nil => exact ht
  | keep => exact ht
  | swap hswaps =>
    obtain ⟨c, d, hc, hd, hsame, -⟩ := hswaps.head
    intro e he
    rw [head?_append, hd] at he
    cases he
    rw [← hsame]
    exact ht c (by rw [head?_append, hc]; rfl)
  | drop _ _ hjoin _ ih => exact ih hs (hjoin hs)

lemma exists_start {v y : Text} (h : Derived w .code t (v ++ y)) (hw : ∀ c ∈ w, isWord c = true) (hv : v ⊆ w)
    (hy : ∀ c ∈ y.head?, isWord c = false) : ∃ y', t = v ++ y' ∧ ∀ c ∈ y'.head?, isWord c = false := by
  induction v generalizing t with
  | nil => exact ⟨t, rfl, h.head_source hy⟩
  | cons c v ih =>
    have hc : c ∈ w := hv mem_cons_self
    have hcode := Quoting.step_code (isQuote_eq_false_of_isWord (hw c hc))
    generalize hout : c :: v ++ y = out at h
    cases h with
    | nil => cases hout
    | keep hrest =>
      cases hout
      rw [hcode] at hrest
      obtain ⟨y', rfl, hy'⟩ := ih hrest fun d hd => hv (mem_cons_of_mem c hd)
      exact ⟨y', rfl, hy'⟩
    | swap hswaps =>
      obtain ⟨-, d, -, hd, -, hnot⟩ := hswaps.head
      have hhead := congrArg head? hout
      rw [head?_append, head?_append, hd] at hhead
      cases hhead
      exact absurd hc hnot
    | drop _ _ hjoin hrest =>
      have hnot := hrest.head_derived rfl (hjoin rfl) c (by rw [← hout]; rfl)
      rw [hw c hc] at hnot
      cases hnot

lemma refersFrom_of_start {y : Text} (h : Derived w s t (w ++ y)) (hw : ∀ c ∈ w, isWord c = true)
    (hs : s = .code) (hbefore : ∀ c ∈ before, isWord c = false) (hy : ∀ c ∈ y.head?, isWord c = false) :
    RefersFrom s before w t := by
  subst hs
  obtain ⟨y', rfl, hy'⟩ := h.exists_start hw (Subset.refl w) hy
  exact ⟨[], y', rfl, ⟨rfl, fun _ => hbefore⟩, by simp, hy'⟩

/-- **A word in the code of a derived text** stands in the code of the text it is derived from. -/
lemma refersFrom (h : Derived w s t u) (hw : isWordText w = true) (hu : RefersFrom s before w u) :
    RefersFrom s before w t := by
  have hword := all_isWord hw
  induction h generalizing before with
  | nil =>
    obtain ⟨x, y, heq, -⟩ := hu
    obtain ⟨c, r, rfl, -⟩ := exists_cons_of_isWordText hw
    simp at heq
  | @keep s c t u hrest ih =>
    obtain ⟨x, y, heq, ⟨hx, hstart⟩, hbefore, hafter⟩ := hu
    rcases x with _ | ⟨d, x⟩
    · have hderived : Derived w s (c :: t) (w ++ y) := heq ▸ .keep hrest
      exact hderived.refersFrom_of_start hword hx (hstart rfl) hafter
    · cases heq
      refine RefersFrom.append (a := [c]) (cons_ne_nil c []) (ih ⟨x, y, rfl, ⟨hx, ?_⟩, ?_, hafter⟩)
      · rintro rfl
        exact hbefore
      · intro d hd
        exact hbefore d (by rw [getLast?_cons, Option.mem_def.1 hd]; rfl)
  | @swap s old new t u hswaps hrest ih =>
    obtain ⟨x, y, heq, ⟨hx, hstart⟩, hbefore, hafter⟩ := hu
    obtain ⟨c, d, hc, hd, hsame, hnot⟩ := hswaps.last
    have hcases : (∃ x', x = new ++ x' ∧ u = x' ++ (w ++ y)) ∨
        ∃ v e, new = x ++ (v ++ [e]) ∧ w ++ y = (v ++ [e]) ++ u := by
      rcases append_eq_append_iff.1 heq with h | ⟨v, rfl, hrest'⟩
      · exact .inl h
      rcases eq_nil_or_concat' v with rfl | ⟨v, e, rfl⟩
      · exact .inl ⟨[], by simp, hrest'.symm⟩
      · exact .inr ⟨v, e, rfl, hrest'⟩
    rcases hcases with ⟨x', rfl, rfl⟩ | ⟨v, e, rfl, hrest'⟩
    · -- The word starts behind what was exchanged.
      have hold : old ≠ [] := by
        rintro rfl
        cases hc
      refine RefersFrom.append hold (ih ⟨x', y, rfl, ⟨?_, ?_⟩, ?_, hafter⟩)
      · rwa [after_append, hswaps.after] at hx
      · rintro rfl e he
        cases hc.symm.trans he
        rw [hsame]
        exact hbefore d (by rw [append_nil]; exact hd)
      · intro e he
        exact hbefore e (by rw [getLast?_append, Option.mem_def.1 he]; rfl)
    · rcases append_eq_append_iff.1 hrest' with ⟨v', hv, -⟩ | ⟨y', hv, -⟩
      · -- It stands in what was written.
        exact absurd hx (hswaps.free x v' (by rw [hv]))
      · -- It starts there and ends behind it.
        rw [← append_assoc, getLast?_concat] at hd
        cases hd
        exact absurd (by simp [hv]) hnot
  | @drop s c t u hc hstep hjoin hrest ih =>
    have hafter : s.after [c] = s := hstep
    refine RefersFrom.append (a := [c]) (cons_ne_nil c []) ?_
    rw [hafter]
    exact ih (hu.of_before (by rintro _ ⟨⟩; exact hc))

/-- **The derived text refers to the word** only if the other one does. -/
lemma refers (h : Derived w .code t u) (hw : isWordText w = true) (hu : Refers w u) : Refers w t :=
  refersFrom_code_none.1 (h.refersFrom hw (refersFrom_code_none.2 hu))

end Derived

end Restage.Text
