import Mathlib.Data.List.Infix
import Mathlib.Data.List.TakeWhile
import Restage.Text.Scan

/-!
# What readers read

A reader that succeeds has cut its text in two.  These lemmas say where: the text is what was read
and what is left, and what was read has the characters that the reader looks for.
-/

namespace Restage.Text

open List Option

variable {body w name r : Text}

/-! ## Characters -/

/-- The characters of the text are looked at, not all characters that there are. -/
instance decidableForallMem (t : Text) (P : Char → Prop) [DecidablePred P] : Decidable (∀ c ∈ t, P c) :=
  decidableBAll P t

instance decidableForallMemOption : (o : Option Char) → (P : Char → Prop) → [DecidablePred P] →
    Decidable (∀ c ∈ o, P c)
  | none, _, _ => isTrue (by simp)
  | some c, P, _ => decidable_of_iff (P c) (by simp)

variable {p : Char → Bool} {t rest : Text} {c : Char}

lemma forall_of_any_eq_false (h : t.any p = false) : ∀ c ∈ t, p c = false := by
  intro c hc
  exact Bool.eq_false_iff.2 (any_eq_false.1 h c hc)

lemma isBlank_eq_false_of_isWord (h : isWord c = true) : isBlank c = false := by
  have hall : (blankCodes.all fun n => !isWord (Char.ofNat n)) = true := by decide +kernel
  refine Bool.eq_false_iff.2 fun hblank => ?_
  have hnone := all_eq_true.1 hall c.toNat (contains_iff_mem.1 hblank)
  rw [Char.ofNat_toNat, h] at hnone
  cases hnone

lemma isWord_of_isNameStart (h : isNameStart c = true) : isWord c = true := by
  rw [isNameStart, Bool.or_eq_true] at h
  have hlt : c.toNat < 128 := by
    rcases h with h | h
    · rcases Bool.or_eq_true_iff.1 h with hupper | hlower
      · have hle := UInt32.le_iff_toNat_le.1 (of_decide_eq_true hupper).2
        exact lt_of_le_of_lt hle (by decide)
      · have hle := UInt32.le_iff_toNat_le.1 (of_decide_eq_true (Bool.and_eq_true_iff.1 hlower).2)
        exact lt_of_le_of_lt hle (by decide)
    · rw [beq_iff_eq.1 h]
      decide
  rw [isWord, if_pos hlt]
  rcases h with h | h
  · rw [Char.isAlphanum, h]
    rfl
  · rw [h, Bool.or_true]

lemma exists_cons_of_isName (h : isName name = true) :
    ∃ c r, name = c :: r ∧ isNameStart c = true ∧ ∀ d ∈ r, isWord d = true := by
  cases name with
  | nil => cases h
  | cons c r =>
    rw [isName, Bool.and_eq_true, List.all_eq_true] at h
    exact ⟨c, r, rfl, h⟩

lemma isWord_of_mem_name (h : isName name = true) : ∀ c ∈ name, isWord c = true := by
  obtain ⟨c, r, rfl, hc, hr⟩ := exists_cons_of_isName h
  exact forall_mem_cons.2 ⟨isWord_of_isNameStart hc, hr⟩

/-! ## Literals -/

lemma consumed_append (u r : Text) : consumed (u ++ r) r = u := by
  rw [consumed, length_append, Nat.add_sub_cancel_right, take_left]

lemma literal?_eq_some : literal? w t = some r ↔ t = w ++ r := by
  rw [literal?, isPrefixOf?_eq_some_iff_append_eq, eq_comm]

lemma literal?_append (w r : Text) : literal? w (w ++ r) = some r := literal?_eq_some.2 rfl

lemma literal?_isSuffix (h : literal? w t = some r) : r <:+ t := ⟨w, (literal?_eq_some.1 h).symm⟩

/-! ## Words -/

section Words

variable {t name r : Text}

lemma all_isWord (h : isWordText t = true) : ∀ c ∈ t, isWord c = true := by
  rw [isWordText, Bool.and_eq_true] at h
  exact all_eq_true.1 h.2

lemma exists_cons_of_isWordText (h : isWordText t = true) : ∃ c r, t = c :: r ∧ isWord c = true := by
  cases t with
  | nil => cases h
  | cons c r => exact ⟨c, r, rfl, all_isWord h c mem_cons_self⟩

lemma not_isEmpty_of_isWordText (h : isWordText t = true) : ¬t.isEmpty = true := by
  obtain ⟨c, r, rfl, -⟩ := exists_cons_of_isWordText h
  exact Bool.false_ne_true

lemma word?_eq_some (h : word? t = some (name, r)) :
    t = name ++ r ∧ isWordText name = true ∧ ∀ c ∈ r.head?, isWord c = false := by
  rw [word?] at h
  cases t with
  | nil => cases h
  | cons c t =>
    rw [run?] at h
    split_ifs at h with hc
    cases h
    have hall : (t.takeWhile isWord).all isWord = true :=
      all_eq_true.2 fun d hd => mem_takeWhile_imp hd
    refine ⟨by rw [cons_append, takeWhile_append_dropWhile], ?_, ?_⟩
    · simp [isWordText, hc]
    · intro d hd
      have hstop := head?_dropWhile_not isWord t
      rw [mem_def.1 hd] at hstop
      exact hstop

lemma isWordText_of_word? (h : word? t = some (name, r)) : isWordText name = true := (word?_eq_some h).2.1

lemma word?_parts (h : word? t = some (name, r)) : name <+: t ∧ r <:+ t := by
  obtain ⟨rfl, -⟩ := word?_eq_some h
  exact ⟨prefix_append _ _, suffix_append _ _⟩

lemma run?_eq_some (h : run? p t = some (name, r)) :
    t = name ++ r ∧ name ≠ [] ∧ ∀ c ∈ name, p c = true := by
  cases t with
  | nil => cases h
  | cons c t =>
    rw [run?] at h
    split_ifs at h with hc
    cases h
    refine ⟨by rw [cons_append, takeWhile_append_dropWhile], cons_ne_nil _ _, ?_⟩
    exact forall_mem_cons.2 ⟨hc, fun d hd => mem_takeWhile_imp hd⟩

lemma run?_isSuffix (h : run? p t = some (name, r)) : r <:+ t := by
  obtain ⟨rfl, -⟩ := run?_eq_some h
  exact suffix_append _ _

lemma run?_cons_of_not (h : p c = false) (r : Text) : run? p (c :: r) = none := by
  rw [run?, if_neg (by simp [h])]

lemma run?_append (hne : name ≠ []) (hall : ∀ c ∈ name, p c = true) (hr : ∀ c ∈ r.head?, p c = false) :
    run? p (name ++ r) = some (name, r) := by
  have htake : (name ++ r).takeWhile p = name ∧ (name ++ r).dropWhile p = r := by
    rw [takeWhile_append_of_pos hall, dropWhile_append_of_pos hall]
    cases r with
    | nil => exact ⟨append_nil _, rfl⟩
    | cons c r =>
      have hc : ¬p c = true := by simp [hr c rfl]
      rw [takeWhile_cons_of_neg hc, dropWhile_cons_of_neg hc, append_nil]
      exact ⟨rfl, rfl⟩
  obtain ⟨c, rest, rfl⟩ := exists_cons_of_ne_nil hne
  have hc : p c = true := hall c mem_cons_self
  rw [cons_append, takeWhile_cons_of_pos hc, dropWhile_cons_of_pos hc] at htake
  rw [cons_append, run?, if_pos hc, htake.1, htake.2]

lemma word?_append (hname : isWordText name = true) (hr : ∀ c ∈ r.head?, isWord c = false) :
    word? (name ++ r) = some (name, r) := by
  obtain ⟨c, rest, rfl, -⟩ := exists_cons_of_isWordText hname
  exact run?_append (cons_ne_nil c rest) (all_isWord hname) hr

end Words

lemma name?_eq_some_iff :
    name? t = some (name, rest) ↔
      t = name ++ rest ∧ isName name = true ∧ ∀ c ∈ rest.head?, isWord c = false := by
  constructor
  · intro h
    cases t with
    | nil => cases h
    | cons c r =>
      rw [name?] at h
      split_ifs at h with hc
      obtain ⟨rfl, rfl⟩ := Prod.mk.inj (some.inj h)
      refine ⟨by rw [cons_append, takeWhile_append_dropWhile], ?_, ?_⟩
      · rw [isName, hc, Bool.true_and, List.all_eq_true]
        exact fun d hd => mem_takeWhile_imp hd
      · intro d hd
        have hstop := head?_dropWhile_not isWord r
        rw [mem_def.1 hd] at hstop
        exact hstop
  · rintro ⟨rfl, hname, hrest⟩
    obtain ⟨c, r, rfl, hc, hr⟩ := exists_cons_of_isName hname
    have hstop : rest.takeWhile isWord = [] ∧ rest.dropWhile isWord = rest := by
      cases rest with
      | nil => exact ⟨rfl, rfl⟩
      | cons d rest => simp [hrest d rfl]
    rw [cons_append, name?, if_pos hc, takeWhile_append_of_pos hr,
      dropWhile_append_of_pos hr, hstop.1, hstop.2, append_nil]

/-! ## Blanks -/

lemma blanks_of_head (h : isBlank c = false) (t : Text) : blanks (c :: t) = c :: t :=
  dropWhile_cons_of_neg (by simp [h])

lemma blanks_eq (t : Text) : ∃ gap : Text, t = gap ++ blanks t ∧ ∀ c ∈ gap, isBlank c = true :=
  ⟨t.takeWhile isBlank, takeWhile_append_dropWhile.symm, fun _ hc => mem_takeWhile_imp hc⟩

lemma blanks_append {g : Text} (hg : allBlank g = true) (hr : ∀ c ∈ r.head?, isBlank c = false) :
    blanks (g ++ r) = r := by
  rw [blanks, dropWhile_append_of_pos (all_eq_true.1 hg)]
  cases r with
  | nil => rfl
  | cons c r => exact blanks_of_head (hr c rfl) r

lemma blanks_spec (t : Text) :
    ∃ g, allBlank g = true ∧ t = g ++ blanks t ∧ ∀ c ∈ (blanks t).head?, isBlank c = false := by
  obtain ⟨g, ht, hg⟩ := blanks_eq t
  refine ⟨g, all_eq_true.2 hg, ht, fun c hc => ?_⟩
  have hstop := head?_dropWhile_not isBlank t
  have hhead : (t.dropWhile isBlank).head? = some c := hc
  rw [hhead] at hstop
  exact hstop

lemma blanks_eq_cons_iff (hc : isBlank c = false) :
    blanks t = c :: r ↔ ∃ g, allBlank g = true ∧ t = g ++ c :: r := by
  constructor
  · intro h
    obtain ⟨g, hg, ht, -⟩ := blanks_spec t
    exact ⟨g, hg, h ▸ ht⟩
  · rintro ⟨g, hg, rfl⟩
    exact blanks_append hg (by simpa using hc)

lemma someBlanks?_eq_some (h : someBlanks? t = some r) :
    ∃ gap : Text, t = gap ++ r ∧ gap ≠ [] ∧ ∀ c ∈ gap, isBlank c = true := by
  cases t with
  | nil => cases h
  | cons c t =>
    rw [someBlanks?] at h
    split_ifs at h with hc
    cases h
    obtain ⟨gap, ht, hgap⟩ := blanks_eq t
    refine ⟨c :: gap, ?_, cons_ne_nil _ _, forall_mem_cons.2 ⟨hc, hgap⟩⟩
    rw [cons_append, ← ht]

lemma blanks_isSuffix (t : Text) : blanks t <:+ t := dropWhile_suffix _

lemma someBlanks?_isSuffix (h : someBlanks? t = some r) : r <:+ t := by
  obtain ⟨gap, ht, -⟩ := someBlanks?_eq_some h
  exact ⟨gap, ht.symm⟩

lemma mem_of_mem_words (h : w ∈ words t) : ∀ c ∈ w, isBlank c = false ∧ c ∈ t := by
  have hfrom : ∀ u word : Text, u ⊆ t → (∀ c ∈ word, isBlank c = false ∧ c ∈ t) →
      ∀ w ∈ wordsFrom word u, ∀ c ∈ w, isBlank c = false ∧ c ∈ t := by
    intro u
    induction u with
    | nil =>
      intro word _ hword w hw c hc
      rw [wordsFrom] at hw
      split_ifs at hw
      · cases hw
      · rw [mem_singleton.1 hw] at hc
        exact hword c (mem_reverse.1 hc)
    | cons d r ih =>
      intro word hu hword w hw
      obtain ⟨hmem, hr⟩ := cons_subset.1 hu
      rw [wordsFrom] at hw
      split_ifs at hw with hd hempty
      · exact ih [] hr (forall_mem_nil _) w hw
      · rcases mem_cons.1 hw with rfl | hw
        · exact fun c hc => hword c (mem_reverse.1 hc)
        · exact ih [] hr (forall_mem_nil _) w hw
      · exact ih _ hr (forall_mem_cons.2 ⟨⟨by simpa using hd, hmem⟩, hword⟩) w hw
  exact hfrom t [] (Subset.refl t) (forall_mem_nil _) w h

/-! ## String literals -/

/-- What can stand between the quotes of a literal. -/
inductive IsLiteralBody : Text → Prop
  | nil : IsLiteralBody []
  | escaped {c : Char} {t : Text} : c ≠ '\n' → IsLiteralBody t → IsLiteralBody ('\\' :: c :: t)
  | char {c : Char} {t : Text} : c ≠ '"' → c ≠ '\\' → IsLiteralBody t → IsLiteralBody (c :: t)

/-- The rest of a literal is what it holds and a quote, which ends it whatever follows. -/
lemma stringTail?_eq_some_iff :
    stringTail? t = some (body, rest) ↔ IsLiteralBody body ∧ t = body ++ '"' :: rest := by
  constructor
  · intro h
    induction t using stringTail?.induct generalizing body rest with
    | case1 => cases h
    | case2 r =>
      cases h
      exact ⟨.nil, rfl⟩
    | case3 r => cases h
    | case4 c r hc ih =>
      rw [stringTail?, if_neg hc] at h
      obtain ⟨⟨found, after⟩, hfound, h⟩ := map_eq_some_iff.1 h
      cases h
      obtain ⟨hbody, rfl⟩ := ih hfound
      exact ⟨.escaped hc hbody, rfl⟩
    | case5 r hquote hpair =>
      rw [stringTail?.eq_4 _ _ hquote hpair] at h
      cases h
    | case6 c r hquote hpair hc ih =>
      rw [stringTail?.eq_4 _ _ hquote hpair, if_neg hc] at h
      obtain ⟨⟨found, after⟩, hfound, h⟩ := map_eq_some_iff.1 h
      cases h
      obtain ⟨hbody, rfl⟩ := ih hfound
      exact ⟨.char hquote hc hbody, rfl⟩
  · rintro ⟨hbody, rfl⟩
    induction hbody with
    | nil => rfl
    | escaped hc _ ih =>
      rw [cons_append, cons_append, stringTail?, if_neg hc, ih]
      rfl
    | char hquote hc _ ih =>
      rw [cons_append, stringTail?.eq_4 _ _ hquote (fun d s hd => absurd hd hc), if_neg hc, ih]
      rfl

lemma string?_cons_of_ne (h : c ≠ '"') (r : Text) : string? (c :: r) = none := by
  rw [string?.eq_def]
  split
  next heq => exact absurd (cons.inj heq).1 h
  · rfl

/-- What is read as a literal is one, whatever follows. -/
lemma string?_eq_some {literal : Text} (h : string? t = some (literal, rest)) :
    t = literal ++ rest ∧ ∀ u, string? (literal ++ u) = some (literal, u) := by
  rw [string?.eq_def] at h
  split at h
  next r =>
    obtain ⟨⟨body, after⟩, hbody, h⟩ := map_eq_some_iff.1 h
    cases h
    obtain ⟨hholds, rfl⟩ := stringTail?_eq_some_iff.1 hbody
    refine ⟨by simp, fun u => ?_⟩
    have hu : '"' :: body ++ ['"'] ++ u = '"' :: (body ++ '"' :: u) := by simp
    rw [hu, string?, stringTail?_eq_some_iff.2 ⟨hholds, rfl⟩]
    rfl
  · cases h

lemma stringTail?_behind_quote {p q : Text} (h : stringTail? t = some (body, []))
    (ht : t = p ++ '"' :: q) (hq : q ≠ []) : ∃ body', stringTail? q = some (body', []) := by
  obtain ⟨hbody, rfl⟩ := stringTail?_eq_some_iff.1 h
  clear h
  induction hbody generalizing p with
  | nil =>
    cases p with
    | nil => exact absurd (cons.inj ht).2.symm hq
    | cons d p => exact absurd (cons.inj ht).2 (by simp)
  | @escaped c body hc hbody ih =>
    rcases p with _ | ⟨d, _ | ⟨e, p⟩⟩
    · cases (cons.inj ht).1
    · exact ⟨body, stringTail?_eq_some_iff.2 ⟨hbody, (cons.inj (cons.inj ht).2).2.symm⟩⟩
    · exact ih (cons.inj (cons.inj ht).2).2
  | char hquote _ _ ih =>
    cases p with
    | nil => exact absurd (cons.inj ht).1 hquote
    | cons d p => exact ih (cons.inj ht).2

/-! ## First cuts -/

lemma cutFirst?_append (h : c ∉ t) (rest : Text) : cutFirst? c (t ++ c :: rest) = some (t, rest) := by
  have hall : ∀ d ∈ t, decide (d ≠ c) = true := by
    intro d hd
    refine decide_eq_true ?_
    rintro rfl
    exact h hd
  have hstop : (c :: rest).takeWhile (fun d => decide (d ≠ c)) = [] ∧
      (c :: rest).dropWhile (fun d => decide (d ≠ c)) = c :: rest := by
    simp
  rw [cutFirst?, dropWhile_append_of_pos hall, takeWhile_append_of_pos hall, hstop.1, hstop.2, append_nil]

lemma cutFirst?_spec {before : Text} (h : cutFirst? c t = some (before, rest)) :
    t = before ++ c :: rest ∧ c ∉ before := by
  have hsplit : t.takeWhile (· ≠ c) ++ t.dropWhile (· ≠ c) = t := takeWhile_append_dropWhile
  unfold cutFirst? at h
  split at h
  · cases h
  · rename_i d r hdrop
    obtain ⟨rfl, rfl⟩ := Prod.mk.inj (some.inj h)
    have hd : d = c := by
      have hhead := head?_dropWhile_not (fun d => decide (d ≠ c)) t
      rw [hdrop] at hhead
      simpa using hhead
    rw [hdrop, hd] at hsplit
    refine ⟨hsplit.symm, fun hc => ?_⟩
    have htaken := mem_takeWhile_imp hc
    exact of_decide_eq_true htaken rfl

lemma not_mem_of_cutFirst?_eq_none (h : cutFirst? c t = none) : c ∉ t := by
  unfold cutFirst? at h
  split at h
  · rename_i hdrop
    intro hc
    exact of_decide_eq_true (dropWhile_eq_nil_iff.1 hdrop c hc) rfl
  · cases h

/-! ## Last parts -/

lemma not_mem_afterLast (c : Char) (t : Text) : c ∉ afterLast c t := by
  intro hc
  have htaken := mem_takeWhile_imp (mem_reverse.1 hc)
  exact of_decide_eq_true htaken rfl

lemma afterLast_of_not_mem (h : c ∉ t) : afterLast c t = t := by
  have hall : t.reverse.takeWhile (· ≠ c) = t.reverse := by
    refine takeWhile_eq_self_iff.2 fun d hd => decide_eq_true ?_
    rintro rfl
    exact h (mem_reverse.1 hd)
  rw [afterLast, hall, reverse_reverse]

end Restage.Text
