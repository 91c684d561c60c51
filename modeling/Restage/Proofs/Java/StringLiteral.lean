import Restage.Java.StringLiteral
import Restage.Proofs.Text.Trimming
import Restage.Text.Mask

/-!
# Reading back the literal of a text

The literal of a text is undone by two exchanges, of escaped quotes first and of doubled backslashes
then.  That this order is right rests on the literal: between its quotes a quote never stands
without the backslash that was put in front of it.  It is right before the closing quote of a
literal inside of an expression too, where an even number of backslashes may stand
(`string_expressions_decode`).

A string expression is looked through for seams of adjacent literals before it is undone, and a
literal can look like a seam, as `" + "` does.  One whose text neither starts nor ends with a blank
or a plus sign has none (`stringValue?_encodeString`).  The mask blanks out all that stands between
the quotes.
-/

namespace Restage.Java

open Text List

variable (t : Text) (c : Char)

lemma encodeString_eq : encodeString t = '"' :: t.flatMap (slashed '"') ++ ['"'] := by
  rw [encodeString, exchange_quote_exchange_slash (by decide)]

/-! ## Undoing the exchanges -/

lemma head?_slashed_ne (rest : Text) : ((c :: t).flatMap (slashed '"') ++ rest).head? ≠ some '"' := by
  rw [flatMap_cons, slashed]
  split_ifs with hc
  · simp
  · rw [not_or] at hc
    simpa using hc.2

/-- The two exchanges that undo the escapes of a literal. -/
def unescape (t : Text) : Text := exchangePair '\\' '\\' ['\\'] (exchangePair '\\' '"' ['"'] t)

lemma unescape_append {t : Text} (h : '\\' ∉ t) (rest : Text) : unescape (t ++ rest) = t ++ unescape rest := by
  rw [unescape, exchangePair_append h, exchangePair_append h, unescape]

lemma unescape_slashed {rest : Text} (hrest : rest = [] ∨ rest.head? = some '"') :
    unescape (t.flatMap (slashed '"') ++ rest) = t ++ unescape rest := by
  induction t with
  | nil => rfl
  | cons c r ih =>
    rw [flatMap_cons, append_assoc, slashed, cons_append, ← ih]
    by_cases hslash : c = '\\'
    · subst hslash
      cases r with
      | cons d r =>
        -- The second backslash is not taken for the one before a quote.
        have hquotes := exchangePair_cons (a := '\\') (x := '\\') (fun h => head?_slashed_ne r d rest h.2) ['"']
        exact congrArg (fun u => exchangePair '\\' '\\' ['\\'] ('\\' :: u)) hquotes
      | nil =>
        rcases hrest with rfl | hquote
        · rfl
        · obtain ⟨v, rfl⟩ := head?_eq_some_iff.1 hquote
          have hend := exchangePair_cons (a := '\\') (b := '"') (x := '"') (r := v) (by simp) ['"']
          exact congrArg (fun u => '\\' :: exchangePair '\\' '\\' ['\\'] u) hend.symm
    by_cases hquote : c = '"'
    · subst hquote
      exact exchangePair_cons (by simp) _
    · rw [if_neg (by simp [hslash, hquote])]
      exact unescape_append (t := [c]) (by simpa using Ne.symm hslash) _

lemma unescape_slashed_self : unescape (t.flatMap (slashed '"')) = t := by
  have hundone := unescape_slashed t (.inl rfl)
  have hnil : unescape [] = [] := rfl
  rwa [append_nil, hnil, append_nil] at hundone

lemma dropFinal?_concat : dropFinal? c (t ++ [c]) = some t := by
  rw [dropFinal?, getLast?_concat, if_pos rfl, dropLast_concat]

lemma trim_quoted : trim ('"' :: t ++ ['"']) = '"' :: t ++ ['"'] := by
  refine trim_eq_self ?_ ?_
  · rintro _ ⟨⟩
    decide
  · rw [getLast?_concat]
    rintro _ ⟨⟩
    decide

lemma trim_encodeString : trim (encodeString t) = encodeString t := by
  rw [encodeString_eq, trim_quoted]

lemma unquote?_quoted : unquote? ('"' :: t ++ ['"']) = some (unescape t) := by
  have hundone : unquote? ('"' :: t ++ ['"']) = (dropFinal? '"' (t ++ ['"'])).map unescape := by
    rw [unquote?, trim_quoted]
    rfl
  rw [hundone, dropFinal?_concat, Option.map_some]

/-- **The literal of a text** is read back as that text. -/
lemma unquote?_encodeString : unquote? (encodeString t) = some t := by
  rw [encodeString_eq, unquote?_quoted, unescape_slashed_self]

/-- **String expressions** are undone for good: the literal of every text is read as that text, and
of two literals with a name between them the concatenation is left in place, whatever the literals
hold. -/
theorem string_expressions_decode :
    (∀ t, unquote? (encodeString t) = some t) ∧
      ∀ a b name : Text, '\\' ∉ name →
        unquote? (encodeString a ++ " + " ++ name ++ " + " ++ encodeString b) =
          some (a ++ "\" + " ++ name ++ " + \"" ++ b) := by
  refine ⟨unquote?_encodeString, fun a b name hname => ?_⟩
  have hquoted : encodeString a ++ " + " ++ name ++ " + " ++ encodeString b = '"' :: (a.flatMap (slashed '"') ++
      ("\" + " ++ name ++ " + \"" ++ (b.flatMap (slashed '"')))) ++ ['"'] := by
    simp [encodeString_eq]
  have hmiddle : '\\' ∉ ("\" + " ++ name ++ " + \"" : Text) := by simp [hname]
  rw [hquoted, unquote?_quoted, unescape_slashed a (.inr rfl), unescape_append hmiddle, unescape_slashed_self]
  simp

/-- Backslashes before the closing quotes. -/
theorem string_expressions_decode_slashes :
    '\\' ∉ ("id" : Text) ∧ unquote? "\"a\\\\\" + id + \"\\\"b\"" = some "a\\\" + id + \"\"b" := by
  have hname : '\\' ∉ ("id" : Text) := by decide
  exact ⟨hname, string_expressions_decode.2 "a\\" "\"b" "id" hname⟩

/-! ## Seams -/

lemma scan_eq_map_inl {α : Type} {reader : Text → Option (α × Text)} {t : Text}
    (h : ∀ u, u <:+ t → reader u = none) : scan reader t = t.map .inl := by
  have hfrom : ∀ before, scanFrom (fun _ => reader) before 0 t = t.map .inl := by
    induction t with
    | nil => exact fun _ => rfl
    | cons c r ih =>
      intro before
      rw [scanFrom, h _ suffix_rfl, ih (fun u hu => h u (hu.trans (suffix_cons c r))), map_cons]
  exact hfrom none

lemma blanks_slashed {t : Text} (hne : t ≠ []) (hlast : ∀ c ∈ t.getLast?, isBlank c = false)
    (rest : Text) : t.dropWhile isBlank ≠ [] ∧
      blanks (t.flatMap (slashed '"') ++ rest) = (t.dropWhile isBlank).flatMap (slashed '"') ++ rest := by
  induction t with
  | nil => exact absurd rfl hne
  | cons c r ih =>
    by_cases hc : isBlank c = true
    · have hplain : slashed '"' c = [c] := by
        refine if_neg ?_
        rintro (rfl | rfl) <;> exact absurd hc (by decide)
      have hr : r ≠ [] := by
        rintro rfl
        simp [hc] at hlast
      have hrest := ih hr (by rwa [getLast?_cons_of_ne_nil hr] at hlast)
      rw [dropWhile_cons_of_pos hc, flatMap_cons, hplain, blanks, cons_append,
        cons_append, dropWhile_cons_of_pos hc]
      exact hrest
    · rw [dropWhile_cons_of_neg hc]
      refine ⟨cons_ne_nil _ _, ?_⟩
      rw [flatMap_cons, slashed]
      split_ifs
      · exact dropWhile_cons_of_neg (by decide)
      · exact dropWhile_cons_of_neg hc

/-- A character that cannot stand right before the closing quote of a seam. -/
def isSolid (c : Char) : Bool := !isBlank c && c != '+'

lemma isBlank_of_isSolid {c : Char} (h : isSolid c = true) : isBlank c = false := by
  simp [isSolid] at h
  exact h.1

lemma literal?_slashed {w d : Char} (hslash : w ≠ '\\') (hd : w = '"' ∨ w ≠ d) (u rest : Text) :
    literal? [w] ((d :: u).flatMap (slashed '"') ++ rest) = none := by
  rw [flatMap_cons, slashed]
  split_ifs with hescaped
  · exact if_neg (by simpa using hslash)
  · refine if_neg ?_
    rw [not_or] at hescaped
    rcases hd with rfl | hd
    · simpa using Ne.symm hescaped.2
    · simpa using hd

lemma seam?_quote {t : Text} (hlast : ∀ c ∈ t.getLast?, isSolid c = true) :
    seam? ('"' :: (t.flatMap (slashed '"') ++ ['"'])) = none := by
  have hblank : ∀ u : Text, (∀ c ∈ u.getLast?, isSolid c = true) →
      ∀ c ∈ u.getLast?, isBlank c = false := fun u hu c hc => isBlank_of_isSolid (hu c hc)
  by_cases hne : t = []
  · subst hne
    rfl
  obtain ⟨hleft, hblanks⟩ := blanks_slashed hne (hblank t hlast) ['"']
  have hsuffix : ∀ c ∈ (t.dropWhile isBlank).getLast?, isSolid c = true := by
    intro c hc
    refine hlast c ?_
    rw [← takeWhile_append_dropWhile (p := isBlank) (l := t), getLast?_append, hc]
    rfl
  rw [seam?, hblanks]
  obtain ⟨d, u, hu⟩ := exists_cons_of_ne_nil hleft
  rw [hu] at hsuffix ⊢
  -- After the blanks stands a plus sign, or there is no seam.
  by_cases hplus : d = '+'
  · subst hplus
    have hmore : u ≠ [] := by
      rintro rfl
      exact absurd (hsuffix '+' rfl) (by decide)
    rw [getLast?_cons_of_ne_nil hmore] at hsuffix
    obtain ⟨hleft', hblanks'⟩ := blanks_slashed hmore (hblank u hsuffix) ['"']
    have hread : literal? "+" (('+' :: u).flatMap (slashed '"') ++ ['"']) =
        some (u.flatMap (slashed '"') ++ ['"']) := rfl
    obtain ⟨e, v, hv⟩ := exists_cons_of_ne_nil hleft'
    have hquote : literal? "\"" ((e :: v).flatMap (slashed '"') ++ ['"']) = none :=
      literal?_slashed (by decide) (.inl rfl) v _
    rw [hread, Option.bind_eq_bind, Option.bind_some, hblanks', hv, hquote]
    rfl
  · have hnone : literal? "+" ((d :: u).flatMap (slashed '"') ++ ['"']) = none :=
      literal?_slashed (by decide) (.inr (Ne.symm hplus)) u _
    rw [hnone]
    rfl

lemma seam?_eq_none_of_ne {c : Char} (hc : c ≠ '"') (r : Text) : seam? (c :: r) = none := by
  rw [seam?.eq_2]
  rintro _ ⟨⟩
  exact hc rfl

lemma seam?_slashed {t : Text} (hlast : ∀ c ∈ t.getLast?, isSolid c = true) :
    ∀ u, u <:+ t.flatMap (slashed '"') ++ ['"'] → seam? u = none := by
  induction t with
  | nil =>
    intro u hu
    rcases suffix_cons_iff.1 hu with rfl | hu
    · rfl
    · rw [suffix_nil.1 hu]
      rfl
  | cons c r ih =>
    have hrest : ∀ d ∈ r.getLast?, isSolid d = true := by
      intro d hd
      refine hlast d ?_
      rw [getLast?_cons, hd]
      rfl
    intro u hu
    rw [flatMap_cons, slashed] at hu
    split_ifs at hu with hescaped
    · rcases suffix_cons_iff.1 hu with rfl | hu
      · exact seam?_eq_none_of_ne (by decide) _
      rcases suffix_cons_iff.1 hu with rfl | hu
      · by_cases hquote : c = '"'
        · subst hquote
          exact seam?_quote hrest
        · exact seam?_eq_none_of_ne hquote _
      · exact ih hrest u hu
    · rw [not_or] at hescaped
      rcases suffix_cons_iff.1 hu with rfl | hu
      · exact seam?_eq_none_of_ne hescaped.2 _
      · exact ih hrest u hu

/-- **The literal of a text** that ends with a solid character is the value of that text as an
expression. -/
lemma stringValue?_encodeString {t : Text} (hlast : ∀ c ∈ t.getLast?, isSolid c = true) :
    stringValue? (encodeString t) = some t := by
  have hscan : scan seam? (encodeString t) = (encodeString t).map .inl := by
    refine scan_eq_map_inl fun u hu => ?_
    rw [encodeString_eq] at hu
    rcases suffix_cons_iff.1 hu with rfl | hu
    · exact seam?_quote hlast
    · exact seam?_slashed hlast u hu
  rw [stringValue?, hscan, filterMap_map]
  exact (congrArg unquote? filterMap_some).trans (unquote?_encodeString t)

/-! ## Masks -/

/-- A reader between double quotes is still between them after a character of a literal, and the
mask shows nothing of it. -/
lemma inside_slashed :
    Quoting.after (.inside '"') (slashed '"' c) = .inside '"' ∧
      ∀ d ∈ maskFrom (.inside '"') (slashed '"' c), d = ' ' := by
  rw [slashed]
  split_ifs with hescaped
  · exact ⟨rfl, by simp [Quoting.shown, Quoting.step]⟩
  · rw [not_or] at hescaped
    simp [Quoting.after, Quoting.step, Quoting.shown, hescaped.1, hescaped.2]

lemma mem_mask_encodeString : ∀ d ∈ mask (encodeString t), d = '"' ∨ d = ' ' := by
  have hinside : Quoting.after (.inside '"') (t.flatMap (slashed '"')) = .inside '"' ∧
      ∀ d ∈ maskFrom (.inside '"') (t.flatMap (slashed '"')), d = ' ' := by
    induction t with
    | nil => exact ⟨rfl, by simp⟩
    | cons c r ih =>
      obtain ⟨hafter, hshown⟩ := inside_slashed c
      rw [flatMap_cons, maskFrom_append, hafter, forall_mem_append]
      refine ⟨?_, hshown, ih.2⟩
      rw [Quoting.after] at hafter ⊢
      rw [foldl_append, hafter]
      exact ih.1
  rw [encodeString_eq, mask, cons_append, maskFrom_cons, forall_mem_cons]
  refine ⟨.inl rfl, ?_⟩
  have hopened : Quoting.step .code '"' = .inside '"' := rfl
  rw [hopened, maskFrom_append, hinside.1, forall_mem_append]
  refine ⟨fun d hd => .inr (hinside.2 d hd), ?_⟩
  simp [Quoting.shown]

end Restage.Java
