import Restage.Proofs.Text.Trimming
import Restage.TypeScript.Literal

/-!
# Literals and what they decode to

A literal is written by three exchanges of characters, one after the other, and by a choice of quote
that depends on the value.  This module reads literals back.  `bodyEnd?` finds the end of a literal
as a scanner does, a backslash taking whatever comes next, and `decodeBody?` gives the pieces that a
body stands for: text, and in a template the slots.

`literal_decodes` says that the two agree with the printer on every value: the first quote that a
scanner meets is the last character, and the pieces that are read are those that were written.  The
exchanges are compared with a single pass over the text (`escapeTemplate`), since the third of them
looks at two neighbours, and what it must not do is pair a dollar sign at the end of a piece with
the brace of what follows.  A slot starts with a dollar sign, so it never does.
-/

namespace Restage.TypeScript

open Text List Option

variable (c : Char) (r : Text) {name : Text} {scanned : List (Char ⊕ Text × Text)}

/-! ## Reading a literal -/

/-- Reads the body of a literal, given the text after its opening quote: the characters up to the
first quote that no backslash takes, and what follows that quote. -/
def bodyEnd? (quote : Char) : Text → Option (Text × Text)
  | [] => none
  | '\\' :: c :: r => (bodyEnd? quote r).map fun (body, rest) => ('\\' :: c :: body, rest)
  | c :: r =>
    if c = quote then some ([], r)
    else if c = '\\' then none
    else (bodyEnd? quote r).map fun (body, rest) => (c :: body, rest)

/-- The pieces of the body of a literal, given the current text and the name of the slot that is
being read, if there is one, both backwards.  A backslash stands for the character after it, and in
a template `$` and an opening brace start a slot.  A body that ends inside a slot or after a
backslash stands for nothing. -/
def decodeFrom? (template : Bool) : Text → Option Text → Text → Option (List Piece)
  | text, none, [] => some [.text text.reverse]
  | _, some _, [] => none
  | text, some name, c :: r =>
    if c = '\x7d' then
      (decodeFrom? template [] none r).map ([.text text.reverse, .slot name.reverse] ++ ·)
    else decodeFrom? template text (some (c :: name)) r
  | text, none, '\\' :: c :: r => decodeFrom? template (c :: text) none r
  | text, none, '$' :: '\x7b' :: r =>
    if template then decodeFrom? template text (some []) r
    else decodeFrom? template ('\x7b' :: '$' :: text) none r
  | text, none, c :: r => if c = '\\' then none else decodeFrom? template (c :: text) none r

/-- The pieces that the body of a literal with the given quote stands for. -/
def decodeBody? (quote : Char) (body : Text) : Option (List Piece) :=
  decodeFrom? (quote == backtick) [] none body

/-! ## Scanning over escaped text -/

/-- A scanner for the quote reads over a text, whatever comes after it. -/
def ReadOver (quote : Char) (t : Text) : Prop :=
  ∀ rest, bodyEnd? quote (t ++ rest) = (bodyEnd? quote rest).map (Prod.map (t ++ ·) id)

namespace ReadOver

variable {quote : Char} {t u : Text}

lemma nil (quote : Char) : ReadOver quote [] := by
  intro rest
  exact map_id'.symm

lemma append (ht : ReadOver quote t) (hu : ReadOver quote u) : ReadOver quote (t ++ u) := by
  intro rest
  have happend : ((t ++ u) ++ · : Text → Text) = (t ++ ·) ∘ (u ++ ·) := by
    funext r
    simp
  rw [append_assoc, ht, hu, Option.map_map, happend]
  rfl

lemma flatMap {α : Type} {f : α → Text} {xs : List α} (h : ∀ x ∈ xs, ReadOver quote (f x)) :
    ReadOver quote (xs.flatMap f) := by
  induction xs with
  | nil => exact nil quote
  | cons x xs ih =>
    exact (h x (by simp)).append (ih fun y hy => h y (by simp [hy]))

lemma escaped (quote c : Char) : ReadOver quote ['\\', c] := by
  intro rest
  rfl

lemma plain {c : Char} (hquote : c ≠ quote) (hslash : c ≠ '\\') : ReadOver quote [c] := by
  intro rest
  rw [singleton_append, bodyEnd?.eq_3 quote c rest (fun _ _ h => absurd h hslash),
    if_neg hquote, if_neg hslash]
  rfl

lemma of_forall (h : ∀ c ∈ t, c ≠ quote ∧ c ≠ '\\') : ReadOver quote t := by
  have hchars := flatMap (f := fun c => [c]) fun c hc => plain (h c hc).1 (h c hc).2
  rwa [flatMap_singleton'] at hchars

end ReadOver

/-! ## Escapes, character by character -/

/-- Text escaped for a template in one pass. -/
def escapeTemplate : Text → Text
  | [] => []
  | '$' :: '\x7b' :: r => '\\' :: '$' :: '\x7b' :: escapeTemplate r
  | c :: r =>
    if c = '\\' ∨ c = backtick then '\\' :: c :: escapeTemplate r else c :: escapeTemplate r

/-- The first two exchanges of a template: a backslash in front of backslashes and backticks. -/
def withSlashes (t : Text) : Text :=
  exchange backtick ['\\', backtick] (exchange '\\' ['\\', '\\'] t)

lemma withSlashes_cons :
    withSlashes (c :: r) =
      if c = '\\' ∨ c = backtick then '\\' :: c :: withSlashes r else c :: withSlashes r := by
  rw [withSlashes, withSlashes, exchange_quote_exchange_slash (by decide),
    exchange_quote_exchange_slash (by decide), flatMap_cons, slashed]
  split_ifs <;> rfl

variable (t : Text) (params : List Text)

/-- The three exchanges of a template come to one pass.  The first two put nothing but backslashes
in front of a character, so the third finds the pairs that were there before. -/
lemma escape_backtick : escape backtick t = escapeTemplate t := by
  have hpass : ∀ u : Text,
      escape backtick u = exchangePair '$' '\x7b' ['\\', '$', '\x7b'] (withSlashes u) := by
    intro u
    rw [escape, if_pos rfl, withSlashes]
  induction t using escapeTemplate.induct with
  | case1 => rfl
  | case2 r ih =>
    rw [escapeTemplate, ← ih]
    rfl
  | case3 c r hpair hc ih =>
    have hdollar : c ≠ '$' := by rcases hc with rfl | rfl <;> decide
    rw [escapeTemplate.eq_3 c r hpair, if_pos hc, ← ih, hpass, hpass, withSlashes_cons, if_pos hc,
      exchangePair_cons (by simp), exchangePair_cons (by simp [hdollar])]
  | case4 c r hpair hc ih =>
    rw [escapeTemplate.eq_3 c r hpair, if_neg hc, ← ih, hpass, withSlashes_cons, if_neg hc]
    refine exchangePair_cons ?_ _
    rintro ⟨hdollar, hr⟩
    cases r with
    | nil => cases hr
    | cons d r =>
      rw [withSlashes_cons] at hr
      split_ifs at hr
      · cases hr
      · exact hpair r hdollar (by rw [some.inj hr])

lemma readOver_escapeTemplate : ReadOver backtick (escapeTemplate t) := by
  induction t using escapeTemplate.induct with
  | case1 => exact .nil _
  | case2 r ih =>
    have hbrace : ReadOver backtick ['\x7b'] := .plain (by decide) (by decide)
    exact (ReadOver.escaped _ '$').append (hbrace.append ih)
  | case3 c r hpair hc ih =>
    rw [escapeTemplate.eq_3 c r hpair, if_pos hc]
    exact (ReadOver.escaped _ c).append ih
  | case4 c r hpair hc ih =>
    rw [escapeTemplate.eq_3 c r hpair, if_neg hc]
    rw [not_or] at hc
    exact (ReadOver.plain hc.2 hc.1).append ih

lemma escape_single {t : Text} (h : '\x27' ∉ t) :
    escape '\x27' t = t.flatMap fun c => if c = '\\' then ['\\', '\\'] else [c] := by
  have hnone : ∀ u : Text, '\x27' ∉ u → exchange '\x27' ['\\', '\x27'] u = u := by
    intro u hu
    induction u with
    | nil => rfl
    | cons c u ih =>
      rw [mem_cons, not_or] at hu
      rw [exchange, flatMap_cons, if_neg (Ne.symm hu.1)]
      exact congrArg (c :: ·) (ih hu.2)
  refine hnone _ fun hmem => ?_
  obtain ⟨c, hc, hmem⟩ := mem_flatMap.1 hmem
  split_ifs at hmem
  · exact absurd hmem (by decide)
  · rw [← mem_singleton.1 hmem] at hc
    exact h hc

/-! ## Reading escaped text back -/

section Decoding

variable (template : Bool) (text rest : Text)

lemma decodeFrom?_plain {c : Char} {r : Text} (hslash : c ≠ '\\')
    (hslot : template = true → c = '$' → r.head? ≠ some '\x7b') :
    decodeFrom? template text none (c :: r) = decodeFrom? template (c :: text) none r := by
  by_cases hpair : c = '$' ∧ r.head? = some '\x7b'
  · obtain ⟨rfl, hr⟩ := hpair
    obtain ⟨u, rfl⟩ := head?_eq_some_iff.1 hr
    cases template with
    | false => rfl
    | true => exact absurd hr (hslot rfl rfl)
  · rw [decodeFrom?.eq_6 template text c r (fun _ _ h => absurd h hslash), if_neg hslash]
    rintro u hdollar rfl
    exact hpair ⟨hdollar, rfl⟩

lemma decodeFrom?_doubled (t : Text) :
    decodeFrom? false text none (t.flatMap fun c => if c = '\\' then ['\\', '\\'] else [c]) =
      some [.text (text.reverse ++ t)] := by
  induction t generalizing text with
  | nil => simp [decodeFrom?]
  | cons c t ih =>
    rw [flatMap_cons]
    split_ifs with hc
    · subst hc
      exact (ih ('\\' :: text)).trans (by simp)
    · refine (decodeFrom?_plain false text hc (by simp)).trans ?_
      exact (ih (c :: text)).trans (by simp)

lemma head?_escapeTemplate :
    (escapeTemplate (c :: r)).head? = some c ∨ (escapeTemplate (c :: r)).head? = some '\\' := by
  by_cases hslot : c = '$' ∧ r.head? = some '\x7b'
  · obtain ⟨rfl, hr⟩ := hslot
    obtain ⟨u, rfl⟩ := head?_eq_some_iff.1 hr
    exact .inr rfl
  · rw [escapeTemplate.eq_3 c r (fun u hc hr => hslot ⟨hc, by rw [hr]; rfl⟩)]
    split_ifs
    · exact .inr rfl
    · exact .inl rfl

/-- **Escaped text** is read as it was, whatever comes after it but a brace: that could make a slot
of a dollar sign at the end. -/
lemma decodeFrom?_escapeTemplate (t : Text) (hrest : rest.head? ≠ some '\x7b') :
    decodeFrom? true text none (escapeTemplate t ++ rest) =
      decodeFrom? true (t.reverse ++ text) none rest := by
  induction t using escapeTemplate.induct generalizing text with
  | case1 => rfl
  | case2 r ih =>
    have hbrace : decodeFrom? true ('$' :: text) none ('\x7b' :: (escapeTemplate r ++ rest)) =
        decodeFrom? true ('\x7b' :: '$' :: text) none (escapeTemplate r ++ rest) :=
      decodeFrom?_plain true ('$' :: text) (by decide) (by simp)
    exact (hbrace.trans (ih _)).trans (by simp)
  | case3 c r hpair hc ih =>
    rw [escapeTemplate.eq_3 c r hpair, if_pos hc]
    exact (ih (c :: text)).trans (by simp)
  | case4 c r hpair hc ih =>
    rw [escapeTemplate.eq_3 c r hpair, if_neg hc]
    rw [not_or] at hc
    refine (decodeFrom?_plain true text hc.1 fun _ hdollar => ?_).trans ?_
    · cases r with
      | nil => exact hrest
      | cons d r =>
        have hd : d ≠ '\x7b' := fun h => hpair r hdollar (by rw [h])
        rcases head?_escapeTemplate d r with hhead | hhead <;> simp [hhead, hd]
    · exact (ih (c :: text)).trans (by simp)

lemma decodeFrom?_slot (hname : '\x7d' ∉ name) :
    decodeFrom? true text none (templatePiece (.slot name) ++ rest) =
      (decodeFrom? true [] none rest).map ([.text text.reverse, .slot name] ++ ·) := by
  have hread : ∀ u before : Text, '\x7d' ∉ u →
      decodeFrom? true text (some before) (u ++ '\x7d' :: rest) =
        (decodeFrom? true [] none rest).map
          ([.text text.reverse, .slot (before.reverse ++ u)] ++ ·) := by
    intro u
    induction u with
    | nil =>
      simp [decodeFrom?]
    | cons c u ih =>
      intro before hu
      rw [mem_cons, not_or] at hu
      rw [cons_append, decodeFrom?, if_neg (Ne.symm hu.1), ih _ hu.2]
      simp
  have hstart : templatePiece (.slot name) ++ rest = '$' :: '\x7b' :: (name ++ '\x7d' :: rest) := by
    simp [templatePiece]
  rw [hstart]
  exact hread name [] hname

end Decoding

/-! ## The pieces of a value -/

/-- What a scan leaves in place of a text, put together again. -/
lemma flatMap_scanFrom {α : Type} {reader : Option Char → Text → Option (α × Text)} {whole : α → Text}
    (hreader : ∀ before t a rest, reader before t = some (a, rest) →
      whole a = consumed t rest ∧ rest.length < t.length) (before : Option Char) (n : Nat) (t : Text) :
    (scanFrom reader before n t).flatMap (Sum.elim (fun c => [c]) whole) = t.drop n := by
  induction t generalizing before n with
  | nil => simp [scanFrom]
  | cons c r ih =>
    cases n with
    | succ n => exact ih (some c) n
    | zero =>
      rw [scanFrom]
      cases hread : reader before (c :: r) with
      | none => exact congrArg (c :: ·) (ih (some c) 0)
      | some found =>
        obtain ⟨a, rest⟩ := found
        obtain ⟨hwhole, hlength⟩ := hreader before (c :: r) a rest hread
        have htaken : (c :: r).length - rest.length = (r.length - rest.length) + 1 := by
          rw [length_cons] at hlength ⊢
          omega
        rw [flatMap_cons, ih, Sum.elim_inr, hwhole, consumed, htaken, take_succ_cons,
          cons_append, take_append_drop, drop_zero]

lemma exists_read_of_mem_scanFrom {α : Type} {reader : Option Char → Text → Option (α × Text)} {a : α}
    {before : Option Char} {n : Nat} {t : Text} (h : .inr a ∈ scanFrom reader before n t) :
    ∃ before u rest, reader before u = some (a, rest) := by
  induction t generalizing before n with
  | nil => cases h
  | cons c r ih =>
    cases n with
    | succ n => exact ih h
    | zero =>
      rw [scanFrom] at h
      cases hread : reader before (c :: r) with
      | none =>
        rw [hread] at h
        rcases mem_cons.1 h with h | h
        · cases h
        · exact ih h
      | some found =>
        obtain ⟨b, rest⟩ := found
        rw [hread] at h
        rcases mem_cons.1 h with h | h
        · cases h
          exact ⟨before, c :: r, rest, hread⟩
        · exact ih h

/-- A name is made of letters, digits and underscores. -/
def IsSlotName (name : Text) : Prop := ∀ c ∈ name, isNameStart c = true ∨ isWord c = true

lemma IsSlotName.notMem (h : IsSlotName name) {c : Char} (hstart : isNameStart c = false)
    (hword : isWord c = false) : c ∉ name := by
  intro hc
  rcases h c hc with h | h
  · exact absurd h (by simp [hstart])
  · exact absurd h (by simp [hword])

lemma name?_spec {t rest : Text} (h : name? t = some (name, rest)) :
    IsSlotName name ∧ rest.length < t.length := by
  cases t with
  | nil => cases h
  | cons c r =>
    rw [name?] at h
    split_ifs at h with hc
    cases h
    refine ⟨forall_mem_cons.2 ⟨.inl hc, fun d hd => .inr (mem_takeWhile_imp hd)⟩, ?_⟩
    exact Nat.lt_succ_of_le (dropWhile_sublist _).length_le

lemma length_of_idiomEnd? {quote : Char} {t rest : Text} (h : idiomEnd? quote t = some rest) :
    rest.length ≤ t.length := by
  unfold idiomEnd? at h
  split at h
  · rename_i r
    have hblanks := length_blanks_le r
    split at h
    · rename_i q u hr
      split_ifs at h
      cases h
      rw [hr] at hblanks
      simp only [length_cons] at hblanks ⊢
      omega
    · cases h
  · cases h
    exact le_refl 0
  · cases h

lemma idiomText?_spec {t rest : Text} {found : Text × Text} (h : idiomText? t = some (found, rest)) :
    IsSlotName found.1 ∧ found.2 = consumed t rest ∧ rest.length < t.length := by
  obtain ⟨⟨name, after⟩, hidiom, h⟩ := map_eq_some_iff.1 h
  cases h
  cases t with
  | nil => cases hidiom
  | cons quote r =>
    rw [idiom?] at hidiom
    split_ifs at hidiom
    obtain ⟨r₁, hplus, hidiom⟩ := bind_eq_some_iff.1 hidiom
    obtain ⟨⟨name', r₂⟩, hname, hidiom⟩ := bind_eq_some_iff.1 hidiom
    obtain ⟨r₃, hend, hidiom⟩ := bind_eq_some_iff.1 hidiom
    cases hidiom
    have hr := length_blanks_le r
    have hr₁ := length_blanks_le r₁
    have hr₂ := length_blanks_le r₂
    have hplus := length_of_literal? hplus
    have hend := length_of_idiomEnd? hend
    obtain ⟨hchars, hname⟩ := name?_spec hname
    refine ⟨hchars, rfl, ?_⟩
    rw [length_cons]
    omega

/-- Texts and slots in turn, a text first and last, and the slots with names. -/
inductive Alternating : List Piece → Prop
  | last (t : Text) : Alternating [.text t]
  | cons (t : Text) {name : Text} {ps : List Piece} : IsSlotName name → Alternating ps →
      Alternating (.text t :: .slot name :: ps)

lemma collectPieces_alternating (h : ∀ found, .inr found ∈ scanned → IsSlotName found.1)
    (text : Text) :
    Alternating (collectPieces params text scanned) := by
  induction scanned generalizing text with
  | nil => exact .last _
  | cons item r ih =>
    have hrest := ih fun found hfound => h found (mem_cons_of_mem _ hfound)
    rcases item with c | ⟨name, whole⟩
    · exact hrest (c :: text)
    · rw [collectPieces]
      split_ifs
      · exact .cons _ (h (name, whole) (mem_cons_self ..)) (hrest [])
      · exact hrest _

lemma pieces_alternating (value : Text) : Alternating (pieces params value) := by
  refine collectPieces_alternating params (fun found hfound => ?_) []
  obtain ⟨_, _, _, hread⟩ := exists_read_of_mem_scanFrom hfound
  exact (idiomText?_spec hread).1

lemma collectPieces_eq_text {text : Text}
    (h : (collectPieces params text scanned).any Piece.isSlot = false) :
    collectPieces params text scanned =
      [.text (text.reverse ++ scanned.flatMap (Sum.elim (fun c => [c]) Prod.snd))] := by
  induction scanned generalizing text with
  | nil => simp [collectPieces]
  | cons item r ih =>
    rcases item with c | ⟨name, whole⟩
    · rw [collectPieces] at h ⊢
      rw [ih h]
      simp
    · rw [collectPieces] at h ⊢
      split_ifs at h ⊢
      · exact absurd h (by simp [Piece.isSlot])
      · rw [ih h]
        simp

lemma isDynamic_eq_false_iff (value : Text) :
    isDynamic params value = false ↔ pieces params value = [.text value] := by
  constructor
  · intro h
    have hscan : (scanFrom (fun _ => idiomText?) none 0 value).flatMap
        (Sum.elim (fun c => [c]) Prod.snd) = value :=
      flatMap_scanFrom (fun _ _ _ _ hread => (idiomText?_spec hread).2) none 0 value
    rw [pieces, collectPieces_eq_text params h, scan, hscan]
    rfl
  · intro h
    rw [isDynamic, h]
    rfl

/-! ## Literals -/

lemma IsSlotName.readOver (h : IsSlotName name) :
    ReadOver backtick (templatePiece (.slot name)) := by
  have hname : ReadOver backtick name := by
    refine .of_forall fun c hc => ⟨?_, ?_⟩
    · rintro rfl
      exact h.notMem (by decide) (by decide) hc
    · rintro rfl
      exact h.notMem (by decide) (by decide) hc
  have hstart : ReadOver backtick ['$', '\x7b'] := .of_forall (by simp [backtick])
  have hend : ReadOver backtick ['\x7d'] := .plain (by decide) (by decide)
  exact (hstart.append hname).append hend

namespace Alternating

variable {ps : List Piece}

lemma readOver (h : Alternating ps) : ReadOver backtick (ps.flatMap templatePiece) := by
  have htext : ∀ t, ReadOver backtick (templatePiece (.text t)) := by
    intro t
    rw [templatePiece, escape_backtick]
    exact readOver_escapeTemplate t
  induction h with
  | last t => exact .flatMap (by simpa using htext t)
  | cons t hname _ ih =>
    exact (htext t).append (hname.readOver.append ih)

lemma decodeFrom? (h : Alternating ps) :
    decodeFrom? true [] none (ps.flatMap templatePiece) = some ps := by
  induction h with
  | last t =>
    have hread := decodeFrom?_escapeTemplate [] [] t (by simp)
    rw [flatMap_singleton, templatePiece, escape_backtick, ← append_nil (escapeTemplate t), hread]
    simp [TypeScript.decodeFrom?]
  | @cons t name ps hname _ ih =>
    have hbrace : (templatePiece (.slot name) ++ ps.flatMap templatePiece).head? ≠ some '\x7b' := by
      simp [templatePiece]
    rw [flatMap_cons, flatMap_cons, templatePiece.eq_1, escape_backtick,
      decodeFrom?_escapeTemplate [] _ t hbrace,
      decodeFrom?_slot _ _ (hname.notMem (by decide) (by decide)), ih]
    simp

end Alternating

lemma ReadOver.bodyEnd? {quote : Char} {body : Text} (h : ReadOver quote body) (hquote : quote ≠ '\\') :
    bodyEnd? quote (body ++ [quote]) = some (body, []) := by
  have hlast : TypeScript.bodyEnd? quote [quote] = some ([], []) := by
    rw [bodyEnd?.eq_3 quote quote [] (fun _ _ h => absurd h hquote), if_pos rfl]
  rw [h, hlast]
  simp

lemma exists_body (value : Text) (template : Bool) :
    ∃ quote body, (quote = '\x27' ∨ quote = backtick) ∧
      literal params value template = quote :: body ++ [quote] ∧
      bodyEnd? quote (body ++ [quote]) = some (body, []) ∧
      decodeBody? quote body = some (pieces params value) := by
  have hpieces := pieces_alternating params value
  rw [literal]
  split_ifs with h
  · exact ⟨backtick, _, .inr rfl, rfl, hpieces.readOver.bodyEnd? (by decide), hpieces.decodeFrom?⟩
  · simp only [Bool.or_eq_true, not_or, Bool.not_eq_true] at h
    obtain ⟨⟨-, hstatic⟩, hquote⟩ := h
    have hnone : '\x27' ∉ value := by simpa using hquote
    have hescape := escape_single hnone
    refine ⟨'\x27', _, .inl rfl, rfl, ReadOver.bodyEnd? ?_ (by decide), ?_⟩
    · rw [hescape]
      refine .flatMap fun c hc => ?_
      split_ifs with hslash
      · exact .escaped _ _
      · refine .plain ?_ hslash
        rintro rfl
        exact hnone hc
    · rw [(isDynamic_eq_false_iff params value).1 hstatic, hescape]
      exact decodeFrom?_doubled [] value

/-- **Literals are faithful.**  The literal of a value starts and ends with the same quote, a single
quote or a backtick, and the first such quote that a scanner meets after the opening one, each
backslash taking the next character, is the last character.  What stands between them decodes to the
pieces of the value, the texts as they were and a slot for each parameter.  A value without slots is
one piece of text, and so two such values with the same literal are the same. -/
theorem literal_decodes (params : List Text) (value : Text) (template : Bool) :
    (∃ quote body, (quote = '\x27' ∨ quote = backtick) ∧
      literal params value template = quote :: body ++ [quote] ∧
      bodyEnd? quote (body ++ [quote]) = some (body, []) ∧
      decodeBody? quote body = some (pieces params value)) ∧
    (isDynamic params value = false ↔ pieces params value = [.text value]) ∧
    ∀ params' value' template', isDynamic params value = false → isDynamic params' value' = false →
      literal params value template = literal params' value' template' → value = value' := by
  refine ⟨exists_body params value template, isDynamic_eq_false_iff params value, ?_⟩
  intro params' value' template' hstatic hstatic' heq
  obtain ⟨quote, body, -, hliteral, -, hdecode⟩ := exists_body params value template
  obtain ⟨quote', body', -, hliteral', -, hdecode'⟩ := exists_body params' value' template'
  rw [hliteral, hliteral', List.cons_append, List.cons_append, List.cons.injEq] at heq
  obtain ⟨rfl, hbody⟩ := heq
  obtain rfl : body = body' := List.append_cancel_right hbody
  rw [(isDynamic_eq_false_iff params value).1 hstatic] at hdecode
  rw [(isDynamic_eq_false_iff params' value').1 hstatic', hdecode] at hdecode'
  simpa using hdecode'

/-- A quote, and the same quote after a backslash: two values with no slots, and two literals. -/
theorem literal_decodes_apart :
    isDynamic [] "it's" = false ∧ isDynamic ["s"] "it\\'s" = false ∧
      literal [] "it's" ≠ literal ["s"] "it\\'s" true := by
  obtain ⟨-, -, hinjective⟩ := literal_decodes [] "it's" false
  exact ⟨by decide, by decide, fun h =>
    absurd (hinjective ["s"] "it\\'s" true (by decide) (by decide) h) (by decide)⟩

/-- A dollar sign before a slot stands for itself, and so does one before a brace of the value. -/
example : literal ["n"] "$\x7ba\x7d $\" + n + \"" = "\x60\\$\x7ba\x7d $$\x7bn\x7d\x60" ∧
    decodeBody? backtick "\\$\x7ba\x7d $$\x7bn\x7d" =
      some [.text "$\x7ba\x7d $", .slot "n", .text []] := by
  decide

end Restage.TypeScript
