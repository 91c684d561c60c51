import Restage.Locator.Reader
import Restage.Proofs.Text.Readers

/-!
# The tiers of the locator reader

A locator string is read as an object, then as a quoted pair in running text, or else as a plain
pair.  `Reads` says what each of these tiers accepts, and `understood?_eq_some_iff` that the reader
is exactly that relation.  Only an unknown locator may be empty, and no tier checks the locator that
it gives, so each has to look at the value itself.  `parse_total` says that they all do: the checked
constructor accepts every locator that is read, and a text that no tier reads is kept as it was
given.
-/

namespace Restage.Locator

open Text List Option Json

/-! ## What the tiers accept -/

/-- `b` is the reading of the first item of a list that has one. -/
inductive FirstReading {α β : Type} (R : α → β → Prop) (b : β) : List α → Prop
  | here {a : α} {l : List α} : R a b → FirstReading R b (a :: l)
  | later {a : α} {l : List α} : (∀ b, ¬R a b) → FirstReading R b l → FirstReading R b (a :: l)

/-- A token of a known kind, the first equals sign and a value. -/
structure IsPair (t : Text) (kind : Kind) (value : Text) : Prop where
  split : ∃ token, '=' ∉ token ∧ Kind.ofToken token = kind ∧ t = token ++ '=' :: value
  known : kind ≠ .unknown
  ne_nil : value ≠ []

/-- The locator of a locator string inside a structured one, which is unknown if it is no pair. -/
inductive ReadsInner (t : Text) (description : Option Text) : Descriptor → Prop
  | pair {kind : Kind} {value : Text} : IsPair t kind value →
      ReadsInner t description ⟨kind, value, description⟩
  | unknown : (∀ kind value, ¬IsPair t kind value) → ReadsInner t description (.unknown t description)

/-- A member of an object is a string that is not empty. -/
def HasText (members : Table Value) (key text : Text) : Prop :=
  members.get? key = some (.string text) ∧ text ≠ []

/-- The `locator` member is a string or a list, whose first string counts. -/
inductive HasLocator (members : Table Value) (text : Text) : Prop
  | string : HasText members "locator" text → HasLocator members text
  | list {items : List Value} : members.get? "locator" = some (.array items) →
      FirstReading (fun item text => item = .string text) text items → text ≠ [] →
      HasLocator members text

/-- A member named for a kind gives a locator. -/
def IsMember (members : Table Value) (description : Option Text) (item : Text × Kind) (d : Descriptor) : Prop :=
  d.kind = item.2 ∧ d.description = description ∧ HasText members item.1 d.value

/-- The locator of an object: that of its `locator` member, or else of the first member named for a
kind. -/
inductive ReadsObject (members : Table Value) : Descriptor → Prop
  | locator {description : Option Text} {text : Text} {d : Descriptor} :
      (∀ x, description = some x ↔ HasText members "desc" x) → HasLocator members text →
      ReadsInner text description d → ReadsObject members d
  | kind {description : Option Text} {d : Descriptor} :
      (∀ x, description = some x ↔ HasText members "desc" x) → (∀ text, ¬HasLocator members text) →
      FirstReading (IsMember members description) d memberKinds → ReadsObject members d

/-- A text starts with a key and a string, both in quotes, and a colon between them. -/
def StartsWithPair (key t body : Text) : Prop :=
  ∃ g g' rest : Text, allBlank g = true ∧ allBlank g' = true ∧ IsLiteralBody body ∧
    t = '"' :: (key ++ '"' :: (g ++ ':' :: (g' ++ '"' :: (body ++ '"' :: rest))))

/-- The locator of the first quoted pair of a text. -/
inductive ReadsQuoted (t : Text) : Descriptor → Prop
  | intro {description : Option Text} {text : Text} {d : Descriptor} :
      (∀ x, description = some x ↔ FirstReading (StartsWithPair "desc") x (suffixes t) ∧ x ≠ []) →
      FirstReading (StartsWithPair "locator") text (suffixes t) → text ≠ [] →
      ReadsInner text description d → ReadsQuoted t d

/-- The object of the first candidate that holds one. -/
def HoldsObject (t : Text) (members : Table Value) : Prop :=
  FirstReading (fun t members => read t = .ok (.object members)) members (candidates t)

/-- What a trimmed locator string is read as. -/
inductive Reads (t : Text) : Descriptor → Prop
  | object {members : Table Value} {d : Descriptor} : looksStructured t = true → HoldsObject t members →
      ReadsObject members d → Reads t d
  | quoted {d : Descriptor} : looksStructured t = true →
      (∀ members, HoldsObject t members → ∀ d, ¬ReadsObject members d) →
      ReadsQuoted (exchangePair '\\' '"' ['"'] t) d → Reads t d
  | plain {kind : Kind} {value : Text} : looksStructured t = false → IsPair t kind value →
      Reads t ⟨kind, value, none⟩

/-! ## The tiers read what they accept -/

variable {t text : Text} {description : Option Text} {d : Descriptor} {members : Table Value}

lemma findSome?_eq_some_iff_firstReading {α β : Type} {f : α → Option β} {R : α → β → Prop}
    (hf : ∀ a b, f a = some b ↔ R a b) {l : List α} {b : β} :
    l.findSome? f = some b ↔ FirstReading R b l := by
  induction l with
  | nil => constructor <;> intro h <;> cases h
  | cons a l ih =>
    rw [findSome?_cons]
    cases ha : f a with
    | none =>
      have hnone : ∀ b, ¬R a b := fun b hb => by simp [(hf a b).2 hb] at ha
      refine ih.trans ⟨.later hnone, fun h => ?_⟩
      cases h with
      | here h => exact absurd h (hnone b)
      | later _ h => exact h
    | some b' =>
      refine ⟨fun h => .here ((hf a b).1 (ha.trans h)), fun h => ?_⟩
      cases h with
      | here h => exact ha.symm.trans ((hf a b).2 h)
      | later h _ => exact absurd ((hf a b').1 ha) (h b')

lemma ofPair?_eq_some_iff :
    ofPair? t description = some d ↔ d.description = description ∧ IsPair t d.kind d.value := by
  obtain ⟨kind, value, description'⟩ := d
  rw [ofPair?, bind_eq_some_iff]
  constructor
  · rintro ⟨⟨token, found⟩, hcut, h⟩
    obtain ⟨ht, htoken⟩ := cutFirst?_spec hcut
    dsimp only at h
    split_ifs at h with hknown
    rw [not_or] at hknown
    cases h
    exact ⟨rfl, ⟨token, htoken, rfl, ht⟩, hknown.1, by simpa using hknown.2⟩
  · rintro ⟨rfl, ⟨token, htoken, rfl, rfl⟩, hknown, hvalue⟩
    refine ⟨_, cutFirst?_append htoken value, ?_⟩
    exact if_neg (by simp [hknown, hvalue])

lemma ofInner_eq_iff : ofInner t description = d ↔ ReadsInner t description d := by
  rw [ofInner]
  cases hpair : ofPair? t description with
  | none =>
    have hnone : ∀ kind value, ¬IsPair t kind value := by
      intro kind value h
      have hsome := ofPair?_eq_some_iff (d := ⟨kind, value, description⟩).2 ⟨rfl, h⟩
      rw [hpair] at hsome
      cases hsome
    refine ⟨fun h => h ▸ .unknown hnone, fun h => ?_⟩
    cases h with
    | pair h => exact absurd h (hnone _ _)
    | unknown _ => rfl
  | some found =>
    obtain ⟨rfl, hfound⟩ := ofPair?_eq_some_iff.1 hpair
    refine ⟨fun h => h ▸ .pair hfound, fun h => ?_⟩
    cases h with
    | pair h => exact some.inj (hpair.symm.trans (ofPair?_eq_some_iff.2 ⟨rfl, h⟩))
    | unknown h => exact absurd hfound (h _ _)

lemma filter_isEmpty_eq_some_iff {o : Option Text} :
    o.filter (fun t => !t.isEmpty) = some text ↔ o = some text ∧ text ≠ [] := by
  simp [filter_eq_some_iff]

lemma someText?_eq_some_iff {key : Text} :
    (members.get? key).bind someText? = some text ↔ HasText members key text := by
  simp only [bind_eq_some_iff, someText?, filter_isEmpty_eq_some_iff, Value.text?_eq_some_iff]
  constructor
  · rintro ⟨_, h, rfl, ht⟩
    exact ⟨h, ht⟩
  · rintro ⟨h, ht⟩
    exact ⟨_, h, rfl, ht⟩

lemma locatorText?_eq_some_iff :
    (members.get? "locator").bind locatorText? = some text ↔ HasLocator members text := by
  rw [bind_eq_some_iff]
  constructor
  · rintro ⟨v, hv, h⟩
    rw [locatorText?.eq_def] at h
    split at h
    · obtain ⟨h, ht⟩ := filter_isEmpty_eq_some_iff.1 h
      exact .list hv ((findSome?_eq_some_iff_firstReading fun _ _ => Value.text?_eq_some_iff).1 h) ht
    · exact .string (someText?_eq_some_iff.1 (bind_eq_some_iff.2 ⟨v, hv, h⟩))
  · rintro (⟨hv, ht⟩ | ⟨hv, hfirst, ht⟩)
    · exact ⟨_, hv, filter_isEmpty_eq_some_iff.2 ⟨rfl, ht⟩⟩
    · exact ⟨_, hv, filter_isEmpty_eq_some_iff.2
        ⟨(findSome?_eq_some_iff_firstReading fun _ _ => Value.text?_eq_some_iff).2 hfirst, ht⟩⟩

lemma members?_eq_some_iff : members? t = some members ↔ read t = .ok (.object members) := by
  rw [members?.eq_def]
  split
  · rename_i found h
    rw [h]
    simp
  · rename_i h
    constructor
    · intro hsome
      cases hsome
    · exact fun hread => absurd hread (h members)

lemma member_eq_some_iff (item : Text × Kind) (d : Descriptor) :
    ((members.get? item.1).bind someText?).map (fun value => ⟨item.2, value, description⟩) = some d ↔
      IsMember members description item d := by
  obtain ⟨kind, value, description'⟩ := d
  simp only [map_eq_some_iff, someText?_eq_some_iff, Descriptor.mk.injEq]
  constructor
  · rintro ⟨_, h, rfl, rfl, rfl⟩
    exact ⟨rfl, rfl, h⟩
  · rintro ⟨rfl, rfl, h⟩
    exact ⟨value, h, rfl, rfl, rfl⟩

lemma ofMembers?_eq_some_iff : ofMembers? members = some d ↔ ReadsObject members d := by
  have hdesc : ∀ x, (members.get? "desc").bind someText? = some x ↔ HasText members "desc" x :=
    fun _ => someText?_eq_some_iff
  -- an object has one description, so the one of a reading is the one that the reader looked up
  have hsame : ∀ {description : Option Text}, (∀ x, description = some x ↔ HasText members "desc" x) →
      description = (members.get? "desc").bind someText? :=
    fun h => ext fun x => (h x).trans (hdesc x).symm
  unfold ofMembers?
  split
  · rename_i inner hinner
    rw [some_inj, ofInner_eq_iff]
    refine ⟨.locator hdesc (locatorText?_eq_some_iff.1 hinner), fun h => ?_⟩
    cases h with
    | locator hdescription htext h =>
      obtain rfl := some.inj (hinner.symm.trans (locatorText?_eq_some_iff.2 htext))
      exact hsame hdescription ▸ h
    | kind _ hnone _ => exact absurd (locatorText?_eq_some_iff.1 hinner) (hnone inner)
  · rename_i hnone
    have hno : ∀ text, ¬HasLocator members text := by
      intro text h
      rw [locatorText?_eq_some_iff.2 h] at hnone
      cases hnone
    rw [findSome?_eq_some_iff_firstReading member_eq_some_iff]
    refine ⟨.kind hdesc hno, fun h => ?_⟩
    cases h with
    | locator _ htext _ => exact absurd htext (hno _)
    | kind hdescription _ h => exact hsame hdescription ▸ h

lemma quotedPair?_eq_some_iff (key t text : Text) :
    quotedPair? key t = some text ↔ StartsWithPair key t text := by
  simp only [quotedPair?, bind_eq_bind, bind_eq_some_iff, literal?_eq_some]
  constructor
  · rintro ⟨r, rfl, s, hcolon, u, hquote, ⟨body, rest⟩, htail, h⟩
    obtain rfl : body = text := some.inj h
    obtain ⟨hbody, rfl⟩ := stringTail?_eq_some_iff.1 htail
    obtain ⟨g, hg, rfl⟩ := (blanks_eq_cons_iff (c := ':') (r := s) (by decide)).1 hcolon
    obtain ⟨g', hg', rfl⟩ := (blanks_eq_cons_iff (c := '"') (r := body ++ '"' :: rest) (by decide)).1 hquote
    exact ⟨g, g', rest, hg, hg', hbody, by simp⟩
  · rintro ⟨g, g', rest, hg, hg', hbody, rfl⟩
    refine ⟨g ++ ':' :: (g' ++ '"' :: (text ++ '"' :: rest)), by simp, _,
      (blanks_eq_cons_iff (c := ':') (by decide)).2 ⟨g, hg, rfl⟩, _,
      (blanks_eq_cons_iff (by decide)).2 ⟨g', hg', rfl⟩, _, stringTail?_eq_some_iff.2 ⟨hbody, rfl⟩, rfl⟩

lemma findPair?_eq_some_iff {key : Text} :
    (findPair? key t).filter (fun t => !t.isEmpty) = some text ↔
      FirstReading (StartsWithPair key) text (suffixes t) ∧ text ≠ [] := by
  rw [filter_isEmpty_eq_some_iff, findPair?, findSome?_eq_some_iff_firstReading (quotedPair?_eq_some_iff key)]

lemma ofQuotedPair?_eq_some_iff :
    ofQuotedPair? t = some d ↔ ReadsQuoted (exchangePair '\\' '"' ['"'] t) d := by
  rw [ofQuotedPair?, map_eq_some_iff]
  constructor
  · rintro ⟨text, htext, h⟩
    obtain ⟨hfirst, hne⟩ := findPair?_eq_some_iff.1 htext
    exact .intro (fun _ => findPair?_eq_some_iff) hfirst hne (ofInner_eq_iff.1 h)
  · rintro ⟨hdesc, hfirst, hne, h⟩
    refine ⟨_, findPair?_eq_some_iff.2 ⟨hfirst, hne⟩, ofInner_eq_iff.2 ?_⟩
    have hsame := ext fun x => (hdesc x).trans findPair?_eq_some_iff.symm
    exact hsame ▸ h

lemma holdsObject_iff : (candidates t).findSome? members? = some members ↔ HoldsObject t members :=
  findSome?_eq_some_iff_firstReading fun _ _ => members?_eq_some_iff

lemma object_eq_some_iff :
    ((candidates t).findSome? members?).bind ofMembers? = some d ↔
      ∃ members, HoldsObject t members ∧ ReadsObject members d := by
  simp only [bind_eq_some_iff, holdsObject_iff, ofMembers?_eq_some_iff]

/-- **The reader is the relation of its tiers.** -/
lemma understood?_eq_some_iff : understood? t = some d ↔ Reads t d := by
  rw [understood?]
  split_ifs with hlooks
  · -- The quoted pair is looked for when there is no object, but also when the object has no locator.
    have hnone : ((candidates t).findSome? members?).bind ofMembers? = none ↔
        ∀ members, HoldsObject t members → ∀ d, ¬ReadsObject members d := by
      simp only [eq_none_iff_forall_ne_some, ne_eq, object_eq_some_iff, not_exists, not_and]
      exact forall_comm.trans (forall_congr' fun _ => forall_comm)
    rw [or_eq_some_iff, object_eq_some_iff, ofQuotedPair?_eq_some_iff, hnone]
    constructor
    · rintro (⟨members, hobject, h⟩ | ⟨hobject, h⟩)
      · exact .object hlooks hobject h
      · exact .quoted hlooks hobject h
    · rintro (⟨_, hobject, h⟩ | ⟨_, hobject, h⟩ | ⟨hplain, _⟩)
      · exact .inl ⟨_, hobject, h⟩
      · exact .inr ⟨hobject, h⟩
      · exact absurd hplain (by simp [hlooks])
  · rw [Bool.not_eq_true] at hlooks
    rw [ofPair?_eq_some_iff]
    constructor
    · obtain ⟨kind, value, description⟩ := d
      rintro ⟨rfl, h⟩
      exact .plain hlooks h
    · rintro (⟨hstructured, _, _⟩ | ⟨hstructured, _, _⟩ | ⟨_, h⟩)
      · exact absurd hstructured (by simp [hlooks])
      · exact absurd hstructured (by simp [hlooks])
      · exact ⟨rfl, h⟩

lemma ReadsInner.valid (h : ReadsInner t description d) : d.kind ≠ .unknown → d.value ≠ [] := by
  cases h with
  | pair h => exact fun _ => h.ne_nil
  | unknown _ => exact fun h => absurd rfl h

lemma FirstReading.exists {α β : Type} {R : α → β → Prop} {b : β} {l : List α} (h : FirstReading R b l) :
    ∃ a ∈ l, R a b := by
  induction h with
  | here h => exact ⟨_, mem_cons_self, h⟩
  | later _ _ ih =>
    obtain ⟨a, ha, h⟩ := ih
    exact ⟨a, mem_cons_of_mem _ ha, h⟩

lemma ReadsObject.valid (h : ReadsObject members d) : d.kind ≠ .unknown → d.value ≠ [] := by
  cases h with
  | locator _ _ h => exact h.valid
  | kind _ _ h =>
    obtain ⟨item, -, -, -, htext⟩ := h.exists
    exact fun _ => htext.2

lemma Reads.valid (h : Reads t d) : d.kind ≠ .unknown → d.value ≠ [] := by
  cases h with
  | object _ _ h => exact h.valid
  | quoted _ _ h =>
    obtain ⟨-, -, -, h⟩ := h
    exact h.valid
  | plain _ h => exact fun _ => h.ne_nil

lemma parse_of_reads {raw : Text} (h : Reads (trim raw) d) : parse raw = d := by
  rw [parse, understood?_eq_some_iff.2 h, getD_some]

lemma make_eq_ok (h : d.kind ≠ .unknown → d.value ≠ []) :
    Descriptor.make d.kind d.value d.description = .ok d := by
  refine if_neg fun hempty => ?_
  exact h hempty.2 (isEmpty_iff.1 hempty.1)

/-- Every text has a locator that the checked constructor accepts: what the tiers read it as, or
else the unknown locator with the text as it was given. -/
theorem parse_total (raw : Text) :
    Descriptor.make (parse raw).kind (parse raw).value (parse raw).description = .ok (parse raw) ∧
    ((parse raw).kind ≠ .unknown → (parse raw).value ≠ []) ∧
    (∀ d, Reads (trim raw) d → parse raw = d) ∧
    ((∀ d, ¬Reads (trim raw) d) → parse raw = ⟨.unknown, raw, none⟩) := by
  have hunknown : (∀ d, ¬Reads (trim raw) d) → parse raw = ⟨.unknown, raw, none⟩ := by
    intro h
    rw [parse, eq_none_iff_forall_ne_some.2 fun d hd => h d (understood?_eq_some_iff.1 hd)]
    rfl
  have hvalid : (parse raw).kind ≠ .unknown → (parse raw).value ≠ [] := by
    by_cases h : ∃ d, Reads (trim raw) d
    · obtain ⟨d, h⟩ := h
      rw [parse_of_reads h]
      exact h.valid
    · rw [hunknown (not_exists.1 h)]
      exact fun hkind => absurd rfl hkind
  exact ⟨make_eq_ok hvalid, hvalid, fun _ => parse_of_reads, hunknown⟩

theorem parse_total_broken_object :
    (∀ d, ¬Reads (trim " \x7b\"css\": 5 ") d) ∧
      parse " \x7b\"css\": 5 " = ⟨.unknown, " \x7b\"css\": 5 ", none⟩ := by
  have hnone : ∀ d, ¬Reads (trim " \x7b\"css\": 5 ") d := by
    intro d h
    have hread := understood?_eq_some_iff.2 h
    rw [show understood? (trim " \x7b\"css\": 5 ") = none by decide +kernel] at hread
    cases hread
  exact ⟨hnone, (parse_total _).2.2.2 hnone⟩

end Restage.Locator
