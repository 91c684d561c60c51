import Restage.Proofs.Java.MatchingParentheses

/-!
# Splitting and joining annotations

The annotations in front of a declaration are taken off one at a time.  Taking one off cuts the text
in two (`leadingAnnotation?_cases`), so nothing is lost but blanks at the cuts, whatever the text
is; arguments that are never closed reach to the end.  Annotations that are complete end where they
should: the name at a character that no name has, and the arguments at the parenthesis that matches
the first one, since their literals are closed and their parentheses match
(`parenthesised?_append`).
-/

namespace Restage.Java

open Text List Option

variable {a r t u v x y name arguments : Text}

/-! ## Taking one annotation off -/

/-- A text starts with `@` and a name. -/
def StartsWithName (t : Text) : Prop := ∃ c rest, t = '@' :: c :: rest ∧ isDotted c = true

lemma not_blank_of_dotted {c : Char} (h : isDotted c = true) : isBlank c = false := by
  rcases Bool.or_eq_true_iff.1 h with hword | hdot
  · exact isBlank_eq_false_of_isWord hword
  · rw [beq_iff_eq.1 hdot]
    decide

lemma cutParenthesis?_eq {depth : Nat} {pairs : List (Char × Char)} {a b : Text}
    (h : cutParenthesis? depth pairs = some (a, b)) : pairs.map (·.2) = a ++ b := by
  induction pairs generalizing depth a with
  | nil => cases h
  | cons p r ih =>
    obtain ⟨shown, c⟩ := p
    have hlater : ∀ n, (cutParenthesis? n r).map (fun (x : Text × Text) => (c :: x.1, x.2)) =
        some (a, b) → c :: r.map (·.2) = a ++ b := by
      intro n h
      obtain ⟨⟨a', b'⟩, h', hpair⟩ := map_eq_some_iff.1 h
      cases hpair
      exact congrArg (c :: ·) (ih h')
    rw [cutParenthesis?] at h
    split_ifs at h
    · exact hlater _ h
    · cases h
      rfl
    · exact hlater _ h
    · exact hlater _ h

/-- **One annotation** is cut off, or there is none. -/
lemma leadingAnnotation?_cases (t : Text) :
    (leadingAnnotation? t = none ∧ (StartsWithName t → startsWith "@interface" t = true)) ∨
      ∃ x y, t = x ++ y ∧ StartsWithName x ∧ leadingAnnotation? t = some (trim x, trim y) := by
  unfold leadingAnnotation?
  split_ifs with hinterface
  · exact .inl ⟨rfl, fun _ => hinterface⟩
  split
  next r =>
    cases hrun : run? isDotted r with
    | none =>
      refine .inl ⟨rfl, ?_⟩
      rintro ⟨c, rest, heq, hc⟩
      cases heq
      rw [run?, if_pos hc] at hrun
      cases hrun
    | some found =>
      obtain ⟨name, rest⟩ := found
      obtain ⟨rfl, hne, hname⟩ := run?_eq_some hrun
      obtain ⟨c, name, rfl⟩ := exists_cons_of_ne_nil hne
      obtain ⟨gap, hgap, -⟩ := blanks_eq rest
      have hstart : ∀ u, StartsWithName ('@' :: (c :: name ++ u)) := fun u =>
        ⟨c, name ++ u, rfl, hname c mem_cons_self⟩
      refine .inr ?_
      simp only [bind_eq_bind, bind_some]
      split
      · split
        next inner after hcut =>
          have hsplit := cutParenthesis?_eq hcut
          rw [map_snd_zip (length_mask _).ge] at hsplit
          have ht : '@' :: (c :: name ++ rest) = '@' :: (c :: name ++ (gap ++ inner)) ++ after := by
            rw [hgap, hsplit]
            simp
          rw [ht, consumed_append]
          exact ⟨_, after, rfl, hstart _, rfl⟩
        -- Arguments that are never closed take all the rest.
        next => exact ⟨_, [], (append_nil _).symm, hstart rest, rfl⟩
      · have htrim : trim ('@' :: c :: name) = '@' :: c :: name := by
          refine trim_eq_self (by rintro _ ⟨⟩; decide) fun e he => not_blank_of_dotted (hname e ?_)
          exact mem_of_mem_getLast? he
        exact ⟨'@' :: c :: name, rest, rfl, by simpa using hstart [], by rw [htrim]⟩
  next hstart =>
    refine .inl ⟨rfl, ?_⟩
    rintro ⟨c, rest, rfl, -⟩
    exact absurd rfl (hstart _)

lemma exists_gap (h : trim (x ++ y) = x ++ y) (hx : StartsWithName x) :
    StartsWithName (trim x) ∧ ∃ gap, x ++ y = trim x ++ (gap ++ trim y) ∧ ∀ c ∈ gap, isBlank c = true := by
  obtain ⟨c, rest, rfl, hc⟩ := hx
  have hat : isBlank '@' = false := by decide
  have hleft : ∀ u : Text, trimLeft ('@' :: u) = '@' :: u := blanks_of_head hat
  obtain ⟨gap, hgap, hblank⟩ := trimRight_eq rest
  obtain ⟨gap', hgap', hblank'⟩ := blanks_eq y
  have htrim : trim ('@' :: c :: rest) = '@' :: c :: trimRight rest := by
    rw [trim, hleft, trimRight_cons hat, trimRight_cons (not_blank_of_dotted hc)]
  -- The end of `y` is the end of the whole text, which has been trimmed, unless `y` is blank.
  have hright : trim y = blanks y := by
    cases hy : blanks y with
    | nil => rw [trim, trimLeft, ← blanks, hy]; rfl
    | cons e u =>
      have he : isBlank e = false := by
        have hhead := head?_dropWhile_not isBlank y
        rw [← blanks, hy] at hhead
        exact hhead
      rw [hgap', hy, ← append_assoc, trim, cons_append, cons_append, hleft, ← cons_append,
        trimRight_append_cons he] at h
      rw [trim, trimLeft, ← blanks, hy, trimRight_cons he, (cons.inj (append_cancel_left h)).2]
  rw [htrim, hright]
  refine ⟨⟨c, _, rfl, hc⟩, gap ++ gap', ?_, forall_mem_append.2 ⟨hblank, hblank'⟩⟩
  nth_rewrite 1 [hgap, hgap']
  simp

lemma splitAnnotationsFrom_of_none (h : leadingAnnotation? t = none) : splitAnnotationsFrom t = ([], t) := by
  rw [splitAnnotationsFrom]
  split
  · rfl
  · simp_all

lemma splitAnnotationsFrom_of_some (h : leadingAnnotation? t = some (a, r)) :
    splitAnnotationsFrom t = (a :: (splitAnnotationsFrom r).1, (splitAnnotationsFrom r).2) := by
  rw [splitAnnotationsFrom]
  split
  · simp_all
  · rename_i h'
    cases h.symm.trans h'
    rfl

lemma splitAnnotations_of_head? (h : (trim t).head? ≠ some '@') : splitAnnotations t = ([], trim t) := by
  rcases leadingAnnotation?_cases (trim t) with ⟨hnone, -⟩ | ⟨x, y, ht, ⟨c, rest, rfl, -⟩, -⟩
  · exact splitAnnotationsFrom_of_none hnone
  · rw [ht] at h
    exact absurd rfl h

/-! ## All annotations -/

/-- The texts stand one after the other, with nothing but blanks between them. -/
inductive Spaced : List Text → Text → Prop
  | single (t : Text) : Spaced [t] t
  | cons {t gap whole : Text} {ts : List Text} : (∀ c ∈ gap, isBlank c = true) → Spaced ts whole →
      Spaced (t :: ts) (t ++ (gap ++ whole))

/-- **Nothing is lost** when annotations are split off. -/
lemma splitAnnotationsFrom_spaced (h : trim t = t) :
    Spaced ((splitAnnotationsFrom t).1 ++ [(splitAnnotationsFrom t).2]) t ∧
      (∀ a ∈ (splitAnnotationsFrom t).1, StartsWithName a) ∧
      (StartsWithName (splitAnnotationsFrom t).2 →
        startsWith "@interface" (splitAnnotationsFrom t).2 = true) := by
  induction hlength : t.length using Nat.strong_induction_on generalizing t with
  | _ n ih =>
    rcases leadingAnnotation?_cases t with ⟨hnone, hstop⟩ | ⟨x, y, rfl, hx, hsome⟩
    · rw [splitAnnotationsFrom_of_none hnone]
      exact ⟨.single t, forall_mem_nil _, hstop⟩
    · obtain ⟨hstart, gap, hgap, hblank⟩ := exists_gap h hx
      obtain ⟨hspaced, hall, hstop⟩ := ih _ (hlength ▸ length_of_leadingAnnotation? hsome) (trim_trim y) rfl
      rw [splitAnnotationsFrom_of_some hsome]
      refine ⟨?_, forall_mem_cons.2 ⟨hstart, hall⟩, hstop⟩
      rw [hgap]
      exact .cons hblank hspaced

/-! ## Annotations that are complete -/

/-- The name of an annotation. -/
structure IsAnnotationName (name : Text) : Prop where
  ne_nil : name ≠ []
  dotted : ∀ c ∈ name, isDotted c = true
  notInterface : ¬"interface".toList <+: name

/-- An annotation with a name and, possibly, arguments in which literals are closed and parentheses
match. -/
inductive IsAnnotationText : Text → Prop
  | plain {name : Text} : IsAnnotationName name → IsAnnotationText ('@' :: name)
  | call {name arguments : Text} : IsAnnotationName name → Quoting.after .code arguments = .code →
      Complete arguments → IsAnnotationText ('@' :: (name ++ '(' :: (arguments ++ [')'])))

lemma IsAnnotationText.trim_append (h : IsAnnotationText a) (v : Text) : trim (a ++ v) = a ++ trimRight v := by
  obtain ⟨start, c, rfl, hc⟩ : ∃ start c, a = '@' :: start ++ [c] ∧ isBlank c = false := by
    cases h with
    | @plain name hname =>
      have hlast := hname.dotted _ (getLast_mem hname.ne_nil)
      refine ⟨name.dropLast, name.getLast hname.ne_nil, ?_, not_blank_of_dotted hlast⟩
      rw [cons_append, dropLast_append_getLast]
    | @call name arguments => exact ⟨name ++ '(' :: arguments, ')', by simp, by decide⟩
  have hleft : trimLeft ('@' :: (start ++ c :: v)) = '@' :: (start ++ c :: v) := blanks_of_head (by decide) _
  rw [append_assoc, trim, cons_append, singleton_append, hleft, ← cons_append, trimRight_append_cons hc]
  simp

/-- Inside of parentheses the reader goes on to the one that closes the outermost of them. -/
lemma cutParenthesis?_append {depth : Nat} {p q : List (Char × Char)} (c : Char)
    (hnested : ∀ m, m <+: p.map (·.1) → occurrences ')' m ≤ depth + occurrences '(' m)
    (htotal : occurrences ')' (p.map (·.1)) = depth + occurrences '(' (p.map (·.1))) :
    cutParenthesis? (depth + 1) (p ++ (')', c) :: q) = some (p.map (·.2) ++ [c], q.map (·.2)) := by
  induction p generalizing depth with
  | nil =>
    obtain rfl : depth = 0 := htotal.symm
    rfl
  | cons pair p ih =>
    obtain ⟨shown, e⟩ := pair
    simp only [map_cons] at hnested htotal
    have hinner : ∀ m, m <+: p.map (·.1) → shown :: m <+: shown :: p.map (·.1) := fun m hm =>
      cons_prefix_cons.2 ⟨rfl, hm⟩
    rw [cons_append, cutParenthesis?]
    split_ifs with hopen hclose hdepth
    · subst hopen
      simp only [occurrences_cons_self, closings_cons_opening] at htotal
      rw [ih (fun m hm => ?_) (by omega)]
      · rfl
      · have := hnested _ (hinner m hm)
        simp only [occurrences_cons_self, closings_cons_opening] at this
        omega
    · -- The outermost parenthesis cannot be closed by one of `p`.
      subst hclose
      have := hnested [')'] (hinner [] nil_prefix)
      simp only [occurrences_cons_self, openings_cons_closing, occurrences_nil] at this
      omega
    · subst hclose
      obtain ⟨depth, rfl⟩ : ∃ n, depth = n + 1 := ⟨depth - 1, by omega⟩
      simp only [occurrences_cons_self, openings_cons_closing] at htotal
      rw [Nat.add_sub_cancel, ih (fun m hm => ?_) (by omega)]
      · rfl
      · have := hnested _ (hinner m hm)
        simp only [occurrences_cons_self, openings_cons_closing] at this
        omega
    · rw [occurrences_cons_of_ne hopen, occurrences_cons_of_ne hclose] at htotal
      rw [ih (fun m hm => ?_) htotal]
      · rfl
      · have := hnested _ (hinner m hm)
        rwa [occurrences_cons_of_ne hopen, occurrences_cons_of_ne hclose] at this

/-- **Complete arguments** end at their parenthesis, whatever follows. -/
lemma parenthesised?_append (hclosed : Quoting.after .code arguments = .code) (h : Complete arguments)
    (v : Text) :
    parenthesised? ('(' :: (arguments ++ ')' :: v)) = some ('(' :: (arguments ++ [')']), v) := by
  have hlength := length_mask arguments
  have hopen : mask ('(' :: (arguments ++ ')' :: v)) = '(' :: mask (arguments ++ ')' :: v) := rfl
  have hcut := @cutParenthesis?_append 0 ((mask arguments).zip arguments) ((mask v).zip v) ')'
    (by simpa [map_fst_zip hlength.le] using h.nested) (by simpa [map_fst_zip hlength.le] using h.total.symm)
  rw [map_snd_zip hlength.ge, map_snd_zip (length_mask v).ge] at hcut
  rw [parenthesised?, hopen, mask_append_cons (by decide) hclosed, zip_cons_cons,
    zip_append hlength, zip_cons_cons, cutParenthesis?, hcut]
  rfl

lemma IsAnnotationName.startsWith_eq_false (h : IsAnnotationName name)
    (hv : ∀ c ∈ v.head?, isDotted c = false) : startsWith "@interface" ('@' :: (name ++ v)) = false := by
  refine Bool.eq_false_iff.2 fun hstart => ?_
  have hword : "interface".toList <+: name ++ v := (cons_prefix_cons.1 <| isPrefixOf_iff_prefix.1 hstart).2
  -- The keyword could still reach beyond the name, but it has no character at which a name ends.
  rcases prefix_or_prefix_of_prefix hword (prefix_append name v) with hname | ⟨e, he⟩
  · exact h.notInterface hname
  · rw [← he, prefix_append_right_inj] at hword
    cases e with
    | nil => exact h.notInterface ⟨[], by rw [append_nil, ← he, append_nil]⟩
    | cons c e =>
      obtain ⟨v, rfl⟩ := hword
      have hdotted : "interface".toList.all isDotted = true := by decide
      have hc := all_eq_true.1 hdotted c (by simp [← he])
      rw [hv c rfl] at hc
      cases hc

lemma leadingAnnotation?_append (h : IsAnnotationText a) (hv : ∀ c ∈ v.head?, isDotted c = false)
    (hparen : (blanks v).head? ≠ some '(') : leadingAnnotation? (a ++ v) = some (a, trim v) := by
  cases h with
  | @plain name hname =>
    rw [cons_append, leadingAnnotation?, hname.startsWith_eq_false hv, if_neg Bool.false_ne_true]
    rw [run?_append hname.ne_nil hname.dotted hv]
    simp only [bind_eq_bind, bind_some]
    split
    next hblanks => rw [hblanks] at hparen; exact absurd rfl hparen
    next => rfl
  | @call name arguments hname hclosed hcomplete =>
    have hstop : ∀ c ∈ ('(' :: (arguments ++ ')' :: v)).head?, isDotted c = false := by
      rintro _ ⟨⟩
      decide
    have ht : '@' :: (name ++ '(' :: (arguments ++ [')'])) ++ v =
        '@' :: (name ++ '(' :: (arguments ++ ')' :: v)) := by
      simp
    rw [ht, leadingAnnotation?, hname.startsWith_eq_false hstop, if_neg Bool.false_ne_true]
    rw [run?_append hname.ne_nil hname.dotted hstop]
    simp only [bind_eq_bind, bind_some, blanks_of_head (show isBlank '(' = false by decide),
      parenthesised?_append hclosed hcomplete]
    have htrim := (IsAnnotationText.call hname hclosed hcomplete).trim_append []
    have hnil : trimRight [] = [] := rfl
    rw [hnil, append_nil] at htrim
    rw [← ht, consumed_append, htrim]

/-- **An annotation in front** is the first one that is split off. -/
lemma splitAnnotations_append (h : IsAnnotationText a) (hparen : (trim u).head? ≠ some '(') :
    splitAnnotations (a ++ ' ' :: u) = (a :: (splitAnnotations u).1, (splitAnnotations u).2) := by
  have hblanks : blanks (trimRight (' ' :: u)) = trim u := (trimLeft_trimRight _).trans (trim_cons_blank u)
  have htrim : trim (trimRight (' ' :: u)) = trim u := by
    have htwice : trimRight (trimRight (trimLeft u)) = trimRight (trimLeft u) :=
      congrArg reverse (by rw [trimRight, reverse_reverse, dropWhile_idempotent])
    exact (congrArg trimRight hblanks).trans htwice
  have hhead : ∀ c ∈ (trimRight (' ' :: u)).head?, isDotted c = false := by
    obtain ⟨gap, hgap, -⟩ := trimRight_eq (' ' :: u)
    cases hright : trimRight (' ' :: u) with
    | nil => rintro _ ⟨⟩
    | cons c v =>
      rw [hright] at hgap
      rintro _ ⟨⟩
      rw [← (cons.inj hgap).1]
      decide
  rw [splitAnnotations, h.trim_append,
    splitAnnotationsFrom_of_some (leadingAnnotation?_append h hhead (hblanks ▸ hparen)), htrim]
  rfl

/-- **Splitting and joining annotations** are inverse to each other.  Every text is the annotations
that are split off it and the rest, up to blanks between them.  Annotations that are complete are
split off as they are. -/
theorem annotations_split_and_join :
    (∀ t, Spaced ((splitAnnotations t).1 ++ [(splitAnnotations t).2]) (trim t) ∧
      (∀ a ∈ (splitAnnotations t).1, StartsWithName a) ∧
      (StartsWithName (splitAnnotations t).2 → startsWith "@interface" (splitAnnotations t).2 = true)) ∧
    ∀ annotations d, (∀ a ∈ annotations, IsAnnotationText a) → trim d = d → d.head? ≠ some '@' →
      d.head? ≠ some '(' → splitAnnotations (Text.join " " (annotations ++ [d])) = (annotations, d) := by
  refine ⟨fun t => splitAnnotationsFrom_spaced (trim_trim t), ?_⟩
  intro annotations d hall htrim hat hparen
  induction annotations with
  | nil =>
    have hjoin : Text.join " " ([] ++ [d]) = d := by simp [Text.join]
    rw [hjoin, splitAnnotations_of_head? (by rwa [htrim]), htrim]
  | cons a annotations ih =>
    rw [forall_mem_cons] at hall
    have hjoin : Text.join " " (a :: annotations ++ [d]) = a ++ ' ' :: Text.join " " (annotations ++ [d]) := by
      cases annotations <;> simp [Text.join]
    -- An annotation without arguments would take a parenthesis that follows it for its own.
    have hnext : (trim (Text.join " " (annotations ++ [d]))).head? ≠ some '(' := by
      cases annotations with
      | nil => simpa [Text.join, htrim] using hparen
      | cons b annotations =>
        obtain ⟨v, hv⟩ : ∃ v, Text.join " " (b :: annotations ++ [d]) = b ++ v := by
          cases annotations <;> simp [Text.join]
        have hb := hall.2 b mem_cons_self
        rw [hv, hb.trim_append]
        cases hb <;> simp
    rw [hjoin, splitAnnotations_append hall.1 hnext, ih hall.2]

/-- A parenthesis in a literal, and an annotation inside of another one. -/
theorem annotations_split_and_join_nested :
    (∀ a ∈ (["@FindBy(id = \"a)\")", "@Test", "@And(@Or(b))"] : List Text), IsAnnotationText a) ∧
      splitAnnotations "@FindBy(id = \"a)\") @Test @And(@Or(b)) int x;" =
        ⟨["@FindBy(id = \"a)\")", "@Test", "@And(@Or(b))"], "int x;"⟩ := by
  have hall : ∀ a ∈ (["@FindBy(id = \"a)\")", "@Test", "@And(@Or(b))"] : List Text), IsAnnotationText a := by
    intro a ha
    simp only [mem_cons, not_mem_nil, or_false] at ha
    rcases ha with rfl | rfl | rfl
    · exact @IsAnnotationText.call "FindBy" "id = \"a)\"" ⟨by decide, by decide, by decide⟩ (by decide)
        (by decide)
    · exact @IsAnnotationText.plain "Test" ⟨by decide, by decide, by decide⟩
    · exact @IsAnnotationText.call "And" "@Or(b)" ⟨by decide, by decide, by decide⟩ (by decide) (by decide)
  exact ⟨hall, annotations_split_and_join.2 _ "int x;" hall (by decide) (by decide) (by decide)⟩

end Restage.Java
