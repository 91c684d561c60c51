import Restage.Proofs.Conversion.StructuredLocators

/-!
# Plain pairs

A plain locator is a kind, an equals sign and a value.  It is meant to be understood whatever the
value holds, since the value is a selector and selectors may have equals signs, quotes and braces of
their own.  But the reader decides between a plain and a structured locator before it reads either,
by a look at the whole text, and a text with the word `"locator"` in quotes is never read as a plain
pair.

`parse_pair` says exactly what a pair becomes: itself, up to blanks at the end, if the quoted word
does not occur in the value, and otherwise something else.  The token of a known kind plays no part
in the decision (`not_mem_of_ofToken`), and a text that starts with it is no JSON object
(`members?_pair`), so the only reading left is that of a `"locator": "..."` pair inside the value,
and its value is shorter.
-/

namespace Restage

open List Option

/-! ## Trimming and occurrences -/

variable {c : Char} {t rest : Text} {members : List (Text × Value)} {description : Option Text}
  {d : Descriptor}

namespace Text

lemma occursIn_iff_infix {part : Text} : occursIn part t = true ↔ part <:+: t := by
  have htails : suffixes t = t.tails := by
    induction t with
    | nil => rfl
    | cons c t ih => rw [suffixes, ih, tails]
  rw [occursIn, htails, List.any_eq_true, infix_iff_prefix_suffix]
  simp only [mem_tails, isPrefixOf_iff_prefix, and_comm]

lemma infix_trimRight_iff {part : Text} (hc : isBlank c = false) :
    part ++ [c] <:+: trimRight t ↔ part ++ [c] <:+: t := by
  constructor
  · intro h
    have hprefix : trimRight t <+: t := rdropWhile_prefix isBlank t
    exact h.trans hprefix.isInfix
  · rintro ⟨a, b, rfl⟩
    have hsplit : a ++ (part ++ [c]) ++ b = (a ++ part) ++ c :: b := by simp
    rw [hsplit, trimRight_append_cons hc]
    exact ⟨a, trimRight b, by simp⟩

lemma infix_append_iff {part a b : Text} (ha : c ∉ a) : c :: part <:+: a ++ b ↔ c :: part <:+: b := by
  refine ⟨fun h => ?_, fun h => h.trans (suffix_append a b).isInfix⟩
  induction a with
  | nil => exact h
  | cons d a ih =>
    rw [mem_cons, not_or] at ha
    rcases infix_cons_iff.1 h with h | h
    · exact absurd (cons_prefix_cons.1 h).1 ha.1
    · exact ih ha.2 h

lemma mem_lower (hascii : c.toNat < 128) (hlower : c.toLower = c) (h : c ∈ t) : c ∈ lower t := by
  have hfrom : ∀ before, c ∈ lowerFrom before t := by
    induction t with
    | nil => cases h
    | cons d t ih =>
      intro before
      rw [lowerFrom, mem_append]
      rcases mem_cons.1 h with rfl | h
      · have hsigma : ¬c.toNat = 0x3A3 := by omega
        rw [lowerBetween, if_neg hsigma, lowerChar, if_pos hascii, hlower]
        exact .inl mem_cons_self
      · exact .inr (ih h _)
  exact hfrom []

end Text

open Text

/-! ## Objects -/

namespace Json

lemma constant?_eq_some {v : Value} (h : constant? t = some (v, rest)) : v ∈ constants.map (·.2) := by
  obtain ⟨⟨word, w⟩, hmem, hw⟩ := exists_of_findSome?_eq_some h
  obtain ⟨r, -, hr⟩ := map_eq_some_iff.1 hw
  obtain ⟨rfl, -⟩ := Prod.mk.inj hr
  exact mem_map_of_mem hmem

lemma unsigned?_ne_object {negative : Bool} : unsigned? negative t ≠ .ok (.object members, rest) := by
  intro h
  unfold unsigned? at h
  split at h
  · cases h
  · dsimp only at h
    split at h
    · cases h
    · split_ifs at h <;> cases h

lemma head?_of_value?_object {n : Nat} (h : value? n t = .ok (.object members, rest)) :
    t.head? = some '\x7b' := by
  unfold value? at h
  split at h
  · cases h
  · split at h
    · split at h <;> cases h
    · split at h
      · cases h
      · simp only [bind, Except.bind] at h
        split at h <;> cases h
    · rfl
    · split at h
      · rename_i found hfound
        obtain rfl := Except.ok.inj h
        exact absurd (constant?_eq_some hfound) (by simp [constants])
      · unfold number? at h
        split at h <;> exact absurd h unsigned?_ne_object

lemma head?_of_read_object (h : read t = .ok (.object members)) : (gap t).head? = some '\x7b' := by
  simp only [read, bind, Except.bind] at h
  split at h
  · cases h
  · rename_i found hvalue
    obtain ⟨v, rest⟩ := found
    split_ifs at h
    obtain rfl : v = .object members := Except.ok.inj h
    exact head?_of_value?_object hvalue

/-- A text that starts with anything but a blank or a brace holds no object. -/
lemma read_ne_object (hhead : t.head? = some c) (hblank : isBlank c = false) (hbrace : c ≠ '\x7b')
    (members : List (Text × Value)) : read t ≠ .ok (.object members) := by
  intro h
  obtain ⟨r, rfl⟩ := head?_eq_some_iff.1 hhead
  have hgap : gap (c :: r) = c :: r := by
    refine dropWhile_cons_of_neg fun hc => ?_
    simp only [Bool.or_eq_true, beq_iff_eq] at hc
    rcases hc with ((rfl | rfl) | rfl) | rfl <;> exact absurd hblank (by decide)
  have hobject := head?_of_read_object h
  rw [hgap] at hobject
  exact hbrace (some.inj hobject)

end Json

/-! ## Tokens -/

lemma Table.mem_names_of_get? {α : Type} {table : Table α} {name : Text}
    (h : (table.get? name).isSome = true) : name ∈ table.names := by
  induction table with
  | nil => cases h
  | cons entry rest ih =>
    rw [Table.get?] at h
    rw [Table.names, map_cons, mem_cons]
    split_ifs at h with hname
    · exact .inl hname.symm
    · exact .inr (ih h)

namespace Locator

lemma not_mem_of_ofToken {token : Text} (hkind : Kind.ofToken token ≠ .unknown) (hascii : c.toNat < 128)
    (hlower : c.toLower = c) (hblank : isBlank c = false)
    (hspellings : ∀ spelling ∈ Table.names Kind.aliases, c ∉ spelling) : c ∉ token := by
  intro hc
  have hmem : c ∈ lower (trim token) := mem_lower hascii hlower (mem_trim hblank hc)
  have hknown : (Table.get? Kind.aliases (lower (trim token))).isSome = true := by
    by_contra hnone
    rw [Bool.not_eq_true, isSome_eq_false_iff, isNone_iff_eq_none] at hnone
    exact hkind (by rw [Kind.ofToken, hnone, getD_none])
  exact hspellings _ (Table.mem_names_of_get? hknown) hmem

lemma token_chars {token : Text} (hkind : Kind.ofToken token ≠ .unknown) :
    '=' ∉ token ∧ '"' ∉ token ∧ '\\' ∉ token ∧ '\x7b' ∉ token := by
  refine ⟨?_, ?_, ?_, ?_⟩ <;>
    exact not_mem_of_ofToken hkind (by decide) (by decide) (by decide) (by decide +kernel)

lemma trim_pair (token value : Text) :
    trim (token ++ '=' :: value) = trimLeft token ++ '=' :: trimRight value := by
  have hequals : isBlank '=' = false := by decide
  rw [trim, trimLeft_append_cons hequals, trimRight_append_cons hequals]

lemma ofToken_trimLeft (token : Text) : Kind.ofToken (trimLeft token) = Kind.ofToken token := by
  rw [Kind.ofToken, trim_trimLeft, Kind.ofToken]

/-! ## Pairs -/

section Pairs

variable {token value : Text}

lemma not_mem_start (htoken : c ∉ token) (hequals : c ≠ '=') : c ∉ trimLeft token ++ ['='] := by
  intro hmem
  rcases mem_append.1 hmem with h | h
  · exact htoken ((dropWhile_suffix isBlank).subset h)
  · exact hequals (mem_singleton.1 h)

lemma exists_head_pair (hkind : Kind.ofToken token ≠ .unknown) (value : Text) :
    ∃ c, (trimLeft token ++ '=' :: value).head? = some c ∧ isBlank c = false ∧
      c ≠ '"' ∧ c ≠ '\\' ∧ c ≠ '\x7b' := by
  obtain ⟨-, hquote, hslash, hbrace⟩ := token_chars hkind
  cases htoken : trimLeft token with
  | nil => exact ⟨'=', rfl, by decide, by decide, by decide, by decide⟩
  | cons c r =>
    have hblank := head?_dropWhile_not isBlank token
    have hdrop : token.dropWhile isBlank = c :: r := htoken
    rw [hdrop] at hblank
    have hmem : c ∈ token := by
      refine (dropWhile_suffix isBlank).subset ?_
      rw [hdrop]
      exact mem_cons_self
    refine ⟨c, rfl, hblank, ?_, ?_, ?_⟩
    · rintro rfl
      exact hquote hmem
    · rintro rfl
      exact hslash hmem
    · rintro rfl
      exact hbrace hmem

lemma looksStructured_pair (hkind : Kind.ofToken token ≠ .unknown) :
    looksStructured (trim (token ++ '=' :: value)) = occursIn "\"locator\"" value := by
  obtain ⟨c, hhead, -, -, -, hbrace⟩ := exists_head_pair hkind (trimRight value)
  have hstart : startsWith "\x7b" (trimLeft token ++ '=' :: trimRight value) = false := by
    obtain ⟨r, hr⟩ := head?_eq_some_iff.1 hhead
    rw [hr]
    change ('\x7b' == c && List.isPrefixOf [] r) = false
    rw [beq_eq_false_iff_ne.2 (Ne.symm hbrace), Bool.false_and]
  have hword : (['"'] ++ "locator" ++ ['"'] : Text) = "\"locator\"".toList := rfl
  have hcons : "\"locator\"".toList = '"' :: "locator\"".toList := rfl
  have hconcat : "\"locator\"".toList = "\"locator".toList ++ ['"'] := rfl
  have hquote : '"' ∉ trimLeft token ++ ['='] := not_mem_start (token_chars hkind).2.1 (by decide)
  rw [looksStructured, trim_pair, hstart, Bool.false_or, hword, Bool.eq_iff_iff, occursIn_iff_infix,
    occursIn_iff_infix, ← singleton_append (l := trimRight value), ← append_assoc, hcons,
    infix_append_iff hquote, ← hcons, hconcat, infix_trimRight_iff (by decide)]

lemma head?_exchangePair {a b : Char} {new : Text} (hhead : t.head? = some c) (hc : c ≠ a) :
    (exchangePair a b new t).head? = some c := by
  obtain ⟨r, rfl⟩ := head?_eq_some_iff.1 hhead
  rw [exchangePair_cons (fun h => hc h.1)]
  rfl

lemma members?_pair (hkind : Kind.ofToken token ≠ .unknown) (value : Text) :
    (candidates (trimLeft token ++ '=' :: value)).findSome? members? = none := by
  obtain ⟨c, hhead, hblank, hquote, hslash, hbrace⟩ := exists_head_pair hkind value
  have hnone : ∀ t : Text, t.head? = some c → members? t = none := by
    intro t ht
    unfold members?
    split
    · rename_i members hread
      exact absurd hread (Json.read_ne_object ht hblank hbrace members)
    · rfl
  rw [findSome?_eq_none_iff]
  intro t ht
  apply hnone
  simp only [candidates, mem_append, mem_cons, not_mem_nil, or_false] at ht
  rcases ht with (rfl | rfl) | ht
  · exact hhead
  · exact head?_exchangePair hhead hslash
  · split_ifs at ht
    · rw [mem_singleton.1 ht]
      exact head?_exchangePair hhead hquote
    · cases ht

end Pairs

/-! ## Quoted pairs -/

lemma exists_of_quotedPair? {key body : Text} (h : quotedPair? key t = some body) :
    ∃ r, t = '"' :: r ∧ body.length < t.length := by
  obtain ⟨g, g', rest, -, -, -, rfl⟩ := (quotedPair?_eq_some_iff _ _ _).1 h
  refine ⟨_, rfl, ?_⟩
  simp only [length_append, length_cons]
  omega

lemma length_exchangePair_le (a b c : Char) (t : Text) :
    (exchangePair a b [c] t).length ≤ t.length := by
  induction t using exchangePair.induct a b with
  | case1 x y r hpair ih =>
    rw [exchangePair, if_pos hpair]
    simp only [length_append, length_cons, length_nil]
    omega
  | case2 x y r hpair ih =>
    rw [exchangePair, if_neg hpair]
    exact Nat.succ_le_succ ih
  | case3 r hr =>
    rw [exchangePair.eq_2 _ _ _ _ hr]

lemma length_of_ofInner (hkind : (ofInner t description).kind ≠ .unknown) :
    (ofInner t description).value.length ≤ t.length := by
  have hinner := (ofInner_eq_iff (t := t)).1 (Eq.refl (ofInner t description))
  generalize ofInner t description = d at hinner hkind ⊢
  cases hinner with
  | @pair kind value h =>
    obtain ⟨token, -, -, rfl⟩ := h.split
    simp only [length_append, length_cons]
    omega
  | unknown _ => exact absurd rfl hkind

/-- **A quoted pair inside of a value** does not give the value back: what it holds is shorter. -/
lemma length_of_ofQuotedPair? {start value : Text} (hquote : '"' ∉ start) (hslash : '\\' ∉ start)
    (h : ofQuotedPair? (start ++ value) = some d) (hkind : d.kind ≠ .unknown) :
    d.value.length < value.length := by
  obtain ⟨inner, hinner, rfl⟩ := map_eq_some_iff.1 h
  obtain ⟨hfind, -⟩ := filter_eq_some_iff.1 hinner
  obtain ⟨s, hs, hpair⟩ := exists_of_findSome?_eq_some hfind
  obtain ⟨r, rfl, hlength⟩ := exists_of_quotedPair? hpair
  rw [exchangePair_append hslash] at hs
  have hinfix : '"' :: r <:+: start ++ exchangePair '\\' '"' ['"'] value := by
    rw [← occursIn_iff_infix, occursIn, List.any_eq_true]
    exact ⟨_, hs, isPrefixOf_iff_prefix.2 (prefix_refl _)⟩
  calc (ofInner inner _).value.length ≤ inner.length := length_of_ofInner hkind
    _ < ('"' :: r).length := hlength
    _ ≤ (exchangePair '\\' '"' ['"'] value).length := ((infix_append_iff hquote).1 hinfix).length_le
    _ ≤ value.length := length_exchangePair_le _ _ _ _

/-! ## Plain pairs -/

section Plain

variable {token value : Text}

lemma ofPair?_pair (hkind : Kind.ofToken token ≠ .unknown) (hvalue : allBlank value = false) :
    ofPair? (trim (token ++ '=' :: value)) = some ⟨Kind.ofToken token, trimRight value, none⟩ := by
  have hequals : '=' ∉ trimLeft token := fun h =>
    (token_chars hkind).1 ((dropWhile_suffix isBlank).subset h)
  have hne : trimRight value ≠ [] := by
    intro hnil
    have hall : allBlank value = true := by
      rw [allBlank, List.all_eq_true]
      exact rdropWhile_eq_nil_iff.1 hnil
    rw [hall] at hvalue
    cases hvalue
  rw [trim_pair]
  exact ofPair?_eq_some_iff.2 ⟨rfl, ⟨_, hequals, ofToken_trimLeft token, rfl⟩, hkind, hne⟩

lemma understood?_pair_of_occursIn (hkind : Kind.ofToken token ≠ .unknown)
    (hword : occursIn "\"locator\"" value = true) :
    understood? (trim (token ++ '=' :: value)) = ofQuotedPair? (trim (token ++ '=' :: value)) := by
  rw [understood?, looksStructured_pair hkind, if_pos hword, trim_pair, members?_pair hkind,
    bind_none, none_or]

end Plain

/-- **Plain pairs.**  Let a token of a known kind, in any spelling, be followed by an equals sign
and a value that is not blank.  The pair is understood as the locator of that kind, with the value
up to blanks at its end and no description, exactly if the word `"locator"` in double quotes does
not occur in the value; equals signs, quotes, braces and colons make no difference.  If the word
occurs, the pair is at most a `"locator": "..."` pair inside the value, and otherwise an unknown
locator. -/
theorem plain_pair_understood_iff (token value : Text) (hkind : Kind.ofToken token ≠ .unknown)
    (hvalue : allBlank value = false) :
    (parse (token ++ '=' :: value) = ⟨Kind.ofToken token, trimRight value, none⟩ ↔
      occursIn "\"locator\"" value = false) ∧
    (occursIn "\"locator\"" value = true → parse (token ++ '=' :: value) =
      (ofQuotedPair? (trim (token ++ '=' :: value))).getD (.unknown (token ++ '=' :: value))) := by
  have hquoted : occursIn "\"locator\"" value = true → parse (token ++ '=' :: value) =
      (ofQuotedPair? (trim (token ++ '=' :: value))).getD (.unknown (token ++ '=' :: value)) := by
    intro hword
    rw [parse, understood?_pair_of_occursIn hkind hword]
  refine ⟨⟨fun hparse => ?_, fun hword => ?_⟩, hquoted⟩
  · by_contra hword
    rw [Bool.not_eq_false] at hword
    rw [hquoted hword] at hparse
    cases hpair : ofQuotedPair? (trim (token ++ '=' :: value)) with
    | none =>
      rw [hpair] at hparse
      exact hkind (congrArg Descriptor.kind hparse).symm
    | some d =>
      rw [hpair, Option.getD_some] at hparse
      obtain ⟨-, hquote, hslash, -⟩ := token_chars hkind
      rw [trim_pair, ← List.singleton_append (l := trimRight value), ← List.append_assoc] at hpair
      have hlength := length_of_ofQuotedPair? (not_mem_start hquote (by decide))
        (not_mem_start hslash (by decide)) hpair (by rw [hparse]; exact hkind)
      rw [hparse] at hlength
      exact absurd hlength (Nat.lt_irrefl _)
  · rw [parse, understood?, looksStructured_pair hkind, hword, if_neg Bool.false_ne_true,
      ofPair?_pair hkind hvalue, Option.getD_some]

/-- A value with quotes, braces, a colon and an equals sign, after a token in capitals. -/
theorem plain_pair_understood_braces :
    parse " CSS_Selector =\x7b\"a\": '[b=\"c\"]'\x7d\t" = ⟨.css, "\x7b\"a\": '[b=\"c\"]'\x7d", none⟩ :=
  (plain_pair_understood_iff " CSS_Selector " "\x7b\"a\": '[b=\"c\"]'\x7d\t" (by decide +kernel)
    (by decide)).1.2 (by decide)

/-- An attribute whose value is the word in quotes makes the whole selector unknown. -/
theorem plain_pair_unknown :
    Kind.ofToken "css" = .css ∧ allBlank "[data-test=\"locator\"]" = false ∧
      parse "css=[data-test=\"locator\"]" = .unknown "css=[data-test=\"locator\"]" ∧
      parse "css=[data-test=\"locator\"]" ≠ ⟨.css, "[data-test=\"locator\"]", none⟩ := by
  decide +kernel

end Locator

end Restage
