import Mathlib.Data.List.Chain
import Restage.Proofs.Java.Generics
import Restage.Proofs.Path.Names
import Restage.Proofs.TypeScript.ShownLines

/-!
# Parameter lists

A parameter list is written with `, ` between its declarations, and `, ` also stands between the
arguments of a generic type.  The reader cuts the list at every comma that no bracket encloses, and
angle brackets are none to it.  So the declarations are read back exactly if no type among them has
a comma (`parameters_read_back_iff`).
-/

namespace Restage.Java

open Text List

variable {c : Char} (d : ParameterDeclaration)

/-! ## Declarations -/

/-- Whether a character ends a word, opens or closes a literal or a bracket, or starts an
annotation. -/
def isSeparator (c : Char) : Bool :=
  isBlank c || isQuote c || isOpening c || isClosing c || c == ',' || c == '@'

/-- A text without two dots in a row. -/
def SingleDots (t : Text) : Prop := t.IsChain fun c d => c ≠ '.' ∨ d ≠ '.'

/-- A name, which may be dotted. -/
structure IsDottedName (t : Text) : Prop where
  ne_nil : t ≠ []
  ne_final : t ≠ "final"
  solid : t.any isSeparator = false
  dots : SingleDots t

/-- The text of a type over such names. -/
def IsTypeText (t : Text) : Prop :=
  ∃ tree : TypeTree {name // IsDottedName name}, tree.render Subtype.val = t

/-- The declaration of a parameter. -/
structure ParameterDeclaration where
  isFinal : Bool
  type : Text
  name : Text
  isTypeText : IsTypeText type
  isName : IsDottedName name

namespace ParameterDeclaration

/-- The declaration as it is written. -/
def text (d : ParameterDeclaration) : Text :=
  (if d.isFinal then "final " else [] : Text) ++ (d.type ++ ' ' :: d.name)

/-- The parameter that it declares. -/
def parameter (d : ParameterDeclaration) : Parameter := ⟨d.name, d.type⟩

end ParameterDeclaration

/-- A parameter list as it is written. -/
def parameterText (ds : List ParameterDeclaration) : Text := join ", " (ds.map (·.text))

variable {t u : Text}

/-! ## Commas -/

/-- A text without literals whose brackets are all empty. -/
inductive EmptyBrackets : Text → Prop
  | nil : EmptyBrackets []
  | char {c : Char} {t : Text} : (isQuote c || isOpening c || isClosing c) = false → EmptyBrackets t →
      EmptyBrackets (c :: t)
  | pair {t : Text} : EmptyBrackets t → EmptyBrackets ('[' :: ']' :: t)

namespace EmptyBrackets

lemma append (h : EmptyBrackets t) (h' : EmptyBrackets u) : EmptyBrackets (t ++ u) := by
  induction h with
  | nil => exact h'
  | char hc _ ih => exact .char hc ih
  | pair _ ih => exact .pair ih

lemma join {sep : Text} (hsep : EmptyBrackets sep) {ts : List Text} (h : ∀ t ∈ ts, EmptyBrackets t) :
    EmptyBrackets (join sep ts) := by
  induction ts with
  | nil => exact .nil
  | cons t ts ih =>
    rw [forall_mem_cons] at h
    cases ts with
    | nil => simpa [Text.join] using h.1
    | cons u us =>
      rw [Text.join, intercalate_cons_cons]
      exact (h.1.append hsep).append (ih h.2)

lemma isQuote_eq_false (h : EmptyBrackets t) : ∀ c ∈ t, isQuote c = false := by
  induction h with
  | nil => exact forall_mem_nil _
  | char hc _ ih => exact forall_mem_cons.2 ⟨(Bool.or_eq_false_iff.1 (Bool.or_eq_false_iff.1 hc).1).1, ih⟩
  | pair _ ih => exact forall_mem_cons.2 ⟨by decide, forall_mem_cons.2 ⟨by decide, ih⟩⟩

lemma splitArgumentsFrom_eq (h : EmptyBrackets t) {part : Text} (hpart : ',' ∉ part) :
    splitArgumentsFrom 0 part (t.zip t) = (parts ',' (part.reverse ++ t)).map trim := by
  induction h generalizing part with
  | nil =>
    rw [append_nil, parts_of_notMem (by simpa using hpart)]
    rfl
  | @char c t hc _ ih =>
    simp only [Bool.or_eq_false_iff] at hc
    rw [zip_cons_cons, splitArgumentsFrom, hc.1.2, hc.2, if_neg Bool.false_ne_true, if_neg Bool.false_ne_true]
    by_cases hc : c = ','
    · have hfirst : ',' ∉ part.reverse := by simpa using hpart
      rw [ih not_mem_nil, hc, parts_append_cons hfirst]
      rfl
    · rw [if_neg fun h => hc h.1, ih (by simp [hpart, Ne.symm hc])]
      simp
  | @pair t _ ih =>
    have hread : splitArgumentsFrom 0 part (('[' :: ']' :: t).zip ('[' :: ']' :: t)) =
        splitArgumentsFrom 0 (']' :: '[' :: part) (t.zip t) := rfl
    rw [hread, ih (by simp [hpart])]
    simp

end EmptyBrackets

lemma IsDottedName.emptyBrackets (h : IsDottedName t) : EmptyBrackets t := by
  have hchars := forall_of_any_eq_false h.solid
  clear h
  induction t with
  | nil => exact .nil
  | cons c t ih =>
    obtain ⟨hc, ht⟩ := forall_mem_cons.1 hchars
    simp only [isSeparator, Bool.or_eq_false_iff] at hc
    exact .char (by simp [hc]) (ih ht)

mutual

lemma emptyBrackets_render : (tree : TypeTree {name // IsDottedName name}) →
    EmptyBrackets (tree.render Subtype.val)
  | .named name => name.2.emptyBrackets
  | .generic name args => name.2.emptyBrackets.append
      (.char (by decide) ((emptyBrackets_arguments args).append (.char (by decide) .nil)))
  | .array element => (emptyBrackets_render element).append (.pair .nil)

lemma emptyBrackets_arguments : (args : TypeArguments {name // IsDottedName name}) →
    EmptyBrackets (args.render Subtype.val)
  | .last t => emptyBrackets_render t
  | .more t rest => (emptyBrackets_render t).append
      (.char (by decide) (.char (by decide) (emptyBrackets_arguments rest)))

end

lemma IsTypeText.emptyBrackets (h : IsTypeText t) : EmptyBrackets t := by
  obtain ⟨tree, rfl⟩ := h
  exact emptyBrackets_render tree

lemma emptyBrackets_parameterText (ds : List ParameterDeclaration) : EmptyBrackets (parameterText ds) := by
  have hsep : EmptyBrackets ", " := .char (by decide) (.char (by decide) .nil)
  refine hsep.join (forall_mem_map.2 fun d _ => ?_)
  refine .append ?_ (d.isTypeText.emptyBrackets.append (.char (by decide) d.isName.emptyBrackets))
  split_ifs
  · have hfinal : IsDottedName "fina" := ⟨by decide, by decide, by decide, by simp [SingleDots]⟩
    exact hfinal.emptyBrackets.append (.char (by decide) (.char (by decide) .nil))
  · exact .nil

/-! ## Words -/

lemma singleDots_append_cons (hc : c ≠ '.') (ht : SingleDots t) (hu : SingleDots u) :
    SingleDots (t ++ c :: u) := by
  refine isChain_append.2 ⟨ht, isChain_cons.2 ⟨fun _ _ => .inl hc, hu⟩, fun _ _ d hd => ?_⟩
  cases hd
  exact .inr hc

/-- A text that is one word of a declaration. -/
structure IsOneWord (t : Text) : Prop where
  ne_nil : t ≠ []
  ne_final : t ≠ "final"
  chars : ∀ c ∈ t, isBlank c = false ∧ c ≠ '@'
  dots : SingleDots t

lemma IsDottedName.isOneWord (h : IsDottedName t) : IsOneWord t := by
  refine ⟨h.ne_nil, h.ne_final, fun c hc => ?_, h.dots⟩
  have hnot := forall_of_any_eq_false h.solid c hc
  simp only [isSeparator, Bool.or_eq_false_iff] at hnot
  exact ⟨hnot.1.1.1.1.1, by simpa using hnot.2⟩

lemma IsOneWord.append_cons (ht : IsOneWord t) (hc : isBlank c = false ∧ c ≠ '@') (hdot : c ≠ '.')
    (hfinal : c ∉ "final".toList) (hchars : ∀ c ∈ u, isBlank c = false ∧ c ≠ '@')
    (hu : SingleDots u) :
    IsOneWord (t ++ c :: u) := by
  refine ⟨by simp, fun h => hfinal (h ▸ by simp), ?_, singleDots_append_cons hdot ht.dots hu⟩
  exact forall_mem_append.2 ⟨ht.chars, forall_mem_cons.2 ⟨hc, hchars⟩⟩

/-- A type without a comma is one word: none of its names has several arguments. -/
lemma isOneWord_render : (tree : TypeTree {name // IsDottedName name}) →
    ',' ∉ tree.render Subtype.val → IsOneWord (tree.render Subtype.val)
  | .named name, _ => name.2.isOneWord
  | .array element, hcomma =>
    (isOneWord_render element fun hmem => hcomma (mem_append_left _ hmem)).append_cons (by decide) (by decide)
      (by decide) (by decide) (by simp [SingleDots])
  | .generic name (.last t), hcomma => by
    have hinside := isOneWord_render t fun hmem => hcomma (mem_append_right _ (by simp [hmem, TypeArguments.render]))
    have hend := hinside.append_cons (c := '>') (u := []) (by decide) (by decide) (by decide)
      (forall_mem_nil _) (by simp [SingleDots])
    exact name.2.isOneWord.append_cons (by decide) (by decide) (by decide) hend.chars hend.dots
  | .generic name (.more t rest), hcomma => absurd (by simp [TypeTree.render, TypeArguments.render]) hcomma

lemma IsTypeText.isOneWord (h : IsTypeText t) (hcomma : ',' ∉ t) : IsOneWord t := by
  obtain ⟨tree, rfl⟩ := h
  exact isOneWord_render tree hcomma

lemma wordsFrom_append (h : IsOneWord t) (word r : Text) :
    wordsFrom word (t ++ r) = wordsFrom (t.reverse ++ word) r := by
  have hchars := h.chars
  clear h
  induction t generalizing word with
  | nil => rfl
  | cons c t ih =>
    rw [forall_mem_cons] at hchars
    rw [cons_append, wordsFrom, if_neg (by simp [hchars.1.1]), ih _ hchars.2]
    simp

lemma words_append_blank (h : IsOneWord t) (r : Text) : words (t ++ ' ' :: r) = t :: words r := by
  rw [words, wordsFrom_append h, wordsFrom, if_pos (by decide), if_neg (by simpa using h.ne_nil), append_nil,
    reverse_reverse, words]

lemma words_of_isOneWord (h : IsOneWord t) : words t = [t] := by
  have hread := wordsFrom_append h [] []
  rw [append_nil, append_nil, wordsFrom, if_neg (by simpa using h.ne_nil), reverse_reverse] at hread
  exact hread

lemma spreadDots_eq_self (h : SingleDots t) : spreadDots t = t := by
  induction t using spreadDots.induct with
  | case1 r => simp [SingleDots] at h
  | case2 => rfl
  | case3 c r hdots ih =>
    rw [spreadDots, ih (isChain_cons.1 h).2]
    exact hdots

/-- **One declaration** with a type that is one word is read back. -/
lemma parameter?_text (hcomma : ',' ∉ d.type) :
    trim d.text = d.text ∧ parameter? d.text = some d.parameter := by
  have htype := d.isTypeText.isOneWord hcomma
  have hname := d.isName.isOneWord
  have hkept : [d.type, d.name].filter (· ≠ "final".toList) = [d.type, d.name] := by
    refine filter_eq_self.2 (forall_mem_cons.2 ⟨?_, forall_mem_singleton.2 ?_⟩)
    · exact decide_eq_true htype.ne_final
    · exact decide_eq_true hname.ne_final
  have hbody : words (d.type ++ ' ' :: d.name) = [d.type, d.name] := by
    rw [words_append_blank htype, words_of_isOneWord hname]
  have hdots := singleDots_append_cons (c := ' ') (by decide) htype.dots hname.dots
  obtain ⟨lead, htext, hhead, hdots, hwords⟩ : ∃ lead : Text, d.text = lead ++ (d.type ++ ' ' :: d.name) ∧
      (∀ c ∈ d.text.head?, isBlank c = false ∧ c ≠ '@') ∧ SingleDots d.text ∧
      (words d.text).filter (· ≠ "final".toList) = [d.type, d.name] := by
    rw [ParameterDeclaration.text]
    split_ifs
    · have hlead : words ("final " ++ (d.type ++ ' ' :: d.name)) = "final".toList :: [d.type, d.name] := by
        rw [← hbody]
        rfl
      refine ⟨"final ", rfl, ?_, singleDots_append_cons (t := "final") (by decide) (by simp [SingleDots]) hdots, ?_⟩
      · rintro _ ⟨⟩
        decide
      · rw [hlead, filter_cons_of_neg (by simp), hkept]
    · refine ⟨[], rfl, fun c hc => ?_, hdots, by rw [nil_append, hbody, hkept]⟩
      rw [nil_append, head?_append_of_ne_nil _ htype.ne_nil] at hc
      exact htype.chars c (mem_of_mem_head? hc)
  have htrim : trim d.text = d.text := by
    refine trim_eq_self (fun c hc => (hhead c hc).1) fun c hc => ?_
    rw [htext, append_cons, ← append_assoc, getLast?_append_of_ne_nil _ hname.ne_nil] at hc
    exact (hname.chars c (mem_of_mem_getLast? hc)).1
  have hat : (trim d.text).head? ≠ some '@' := by
    rw [htrim]
    exact fun h => (hhead '@' h).2 rfl
  rw [parameter?, splitAnnotations_of_head? hat, htrim, spreadDots_eq_self hdots, hwords]
  simp [ParameterDeclaration.parameter, join]

/-! ## Parameter lists -/

lemma map_trim_parts_join {ts : List Text} (hne : ts ≠ []) (h : ∀ t ∈ ts, ',' ∉ t) :
    (parts ',' (join ", " ts)).map trim = ts.map trim := by
  induction ts with
  | nil => exact absurd rfl hne
  | cons t ts ih =>
    rw [forall_mem_cons] at h
    cases ts with
    | nil => simp [join, parts_of_notMem h.1]
    | cons u us =>
      have hjoin : join ", " (t :: u :: us) = t ++ ',' :: ' ' :: join ", " (u :: us) := by simp [join]
      obtain ⟨first, rest, hparts⟩ := exists_parts_eq_cons ',' (join ", " (u :: us))
      have hrest := ih (cons_ne_nil _ _) h.2
      rw [hparts, map_cons, ← trim_cons_blank] at hrest
      rw [hjoin, parts_append_cons h.1, parts_cons_of_ne (by decide) hparts, map_cons, map_cons, hrest]
      rfl

lemma mem_spreadDots (h : c ∈ spreadDots t) : c ∈ "[] ".toList ∨ c ∈ t := by
  induction t using spreadDots.induct with
  | case1 r ih =>
    rcases mem_append.1 h with h | h
    · exact .inl h
    · exact (ih h).imp_right fun h => by simp [h]
  | case2 => cases h
  | case3 d r hdots ih =>
    rw [spreadDots.eq_3 _ _ hdots, mem_cons] at h
    rcases h with rfl | h
    · exact .inr mem_cons_self
    · exact (ih h).imp_right (mem_cons_of_mem _)

lemma notMem_type_of_parameter? {p : Parameter} (h : parameter? t = some p) (hcomma : ',' ∉ t) :
    ',' ∉ p.type := by
  have hwords : ∀ w ∈ words (spreadDots (splitAnnotations t).2), ∀ c ∈ w, c ≠ ',' := by
    rintro w hw _ hc rfl
    rcases mem_spreadDots (mem_of_mem_words hw _ hc).2 with h | h
    · exact absurd h (by decide)
    · exact hcomma (splitAnnotations_subset t h)
  rw [parameter?] at h
  split at h
  · rename_i name type types htokens
    cases h
    refine fun hmem => forall_mem_join (P := (· ≠ ',')) (by decide) (fun w hw => hwords w ?_) _ hmem rfl
    have htoken : w ∈ (name :: type :: types).reverse := by
      rw [reverse_cons]
      exact mem_append_left _ hw
    rw [← htokens, reverse_reverse] at htoken
    exact mem_of_mem_filter htoken
  · cases h

lemma parameters_parameterText {ds : List ParameterDeclaration} (hne : ds ≠ []) :
    parameters (parameterText ds) = ((parts ',' (parameterText ds)).map trim).filterMap parameter? := by
  have hblank : allBlank (parameterText ds) = false := by
    obtain ⟨d, hd⟩ := exists_mem_of_ne_nil _ hne
    obtain ⟨c, hc⟩ := exists_mem_of_ne_nil _ d.isName.ne_nil
    have hmem : c ∈ parameterText ds := (TypeScript.infix_join _ (mem_map_of_mem hd)).subset
      (mem_append_right _ (mem_append_right _ (mem_cons_of_mem _ hc)))
    exact all_eq_false.2 ⟨c, hmem, by simp [(d.isName.isOneWord.chars c hc).1]⟩
  have hempty := emptyBrackets_parameterText ds
  rw [parameters, splitArguments, if_neg (by simp [hblank]), mask_of_forall hempty.isQuote_eq_false,
    hempty.splitArgumentsFrom_eq not_mem_nil]
  rfl

lemma ParameterDeclaration.notMem_text (h : ',' ∉ d.type) : ',' ∉ d.text := by
  have hname : ',' ∉ d.name := fun hmem => absurd (forall_of_any_eq_false d.isName.solid _ hmem) (by decide)
  rw [text]
  split_ifs <;> simp [h, hname]

/-- **Parameter lists** are read back exactly if no type has a comma in it, that is if no generic
type has several arguments. -/
theorem parameters_read_back_iff (ds : List ParameterDeclaration) :
    parameters (parameterText ds) = ds.map (·.parameter) ↔ ∀ d ∈ ds, ',' ∉ d.type := by
  by_cases hne : ds = []
  · rw [hne]
    exact iff_of_true rfl (forall_mem_nil _)
  rw [parameters_parameterText hne]
  constructor
  · intro heq d hd hcomma
    have hmem : d.parameter ∈ ((parts ',' (parameterText ds)).map trim).filterMap parameter? :=
      heq ▸ mem_map_of_mem hd
    obtain ⟨_, hread, hparameter⟩ := mem_filterMap.1 hmem
    obtain ⟨part, hpart, rfl⟩ := mem_map.1 hread
    have hfree : ',' ∉ trim part := fun h => notMem_of_mem_parts hpart (trim_subset _ h)
    exact notMem_type_of_parameter? hparameter hfree hcomma
  · intro hcomma
    have htexts : ∀ t ∈ ds.map (·.text), ',' ∉ t :=
      forall_mem_map.2 fun d hd => d.notMem_text (hcomma d hd)
    rw [parameterText, map_trim_parts_join (by simpa using hne) htexts, map_map, filterMap_map,
      ← filterMap_eq_map]
    refine filterMap_congr fun d hd => ?_
    obtain ⟨htrim, hparameter⟩ := parameter?_text d (hcomma d hd)
    exact (congrArg parameter? htrim).trans hparameter

/-- A parameter whose type has two arguments keeps the second one only. -/
theorem generic_pair_cut : ∃ d : ParameterDeclaration,
    parameterText [d] = "Map<String, Integer> m" ∧ d.parameter = ⟨"m", "Map<String, Integer>"⟩ ∧
      parameters (parameterText [d]) = [⟨"m", "Integer>"⟩] := by
  have hname : ∀ t ∈ (["Map", "String", "Integer", "m"] : List Text), IsDottedName t := by
    intro t ht
    simp only [mem_cons, not_mem_nil, or_false] at ht
    rcases ht with rfl | rfl | rfl | rfl <;> exact ⟨by decide, by decide, by decide, by simp [SingleDots]⟩
  have htype : IsTypeText "Map<String, Integer>" :=
    ⟨.generic ⟨"Map", hname _ (by simp)⟩ (.more (.named ⟨"String", hname _ (by simp)⟩)
      (.last (.named ⟨"Integer", hname _ (by simp)⟩))), rfl⟩
  have hcut : parameters "Map<String, Integer> m" = [⟨"m", "Integer>"⟩] := by decide +kernel
  exact ⟨⟨false, _, "m", htype, hname _ (by simp)⟩, rfl, rfl, hcut⟩

end Restage.Java
