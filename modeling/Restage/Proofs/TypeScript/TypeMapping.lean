import Restage.Proofs.Java.CallShapes
import Restage.Proofs.Java.Generics
import Restage.TypeScript.TypeName

/-!
# Types by their structure

A type is read from its text: brackets at the end make an array, the head of a list and the last
angle bracket make a list, and for any other type the generic arguments are removed.  On the text of
a type this agrees with the structure of the type (`typeName_render`), whatever its arguments are.
-/

namespace Restage.TypeScript

open Text Java List Option

/-! ## Types and their texts -/

/-- An identifier. -/
structure IsIdentifier (t : Text) : Prop where
  ne_nil : t ≠ []
  chars : ∀ c ∈ t, isTypeChar c = true ∧ c ≠ '.'
  start : ∀ c ∈ t.head?, isDecimal c = false

/-- A name of identifiers between dots. -/
inductive DottedName where
  | simple (part : Text) (identifier : IsIdentifier part)
  | qualified (part : Text) (identifier : IsIdentifier part) (rest : DottedName)

namespace DottedName

def render : DottedName → Text
  | simple part _ => part
  | qualified part _ rest => part ++ '.' :: rest.render

/-- The last part of a name. -/
def last : DottedName → Text
  | simple part _ => part
  | qualified _ _ rest => rest.last

end DottedName

/-- The head of a list has one argument, if it has any. -/
inductive OneElement : TypeTree DottedName → Prop
  | named (name : DottedName) : OneElement (.named name)
  | generic {name : DottedName} (other : name.render ∉ listHeads) (args : TypeArguments DottedName) :
      OneElement (.generic name args)
  | list {name : DottedName} {element : TypeTree DottedName} (known : name.render ∈ listHeads) :
      OneElement element → OneElement (.generic name (.last element))
  | array {element : TypeTree DottedName} : OneElement element → OneElement (.array element)

/-- A source type. -/
structure SourceType where
  tree : TypeTree DottedName
  lists : OneElement tree

def SourceType.render (t : SourceType) : Text := t.tree.render DottedName.render

/-- The counterpart of a name without dots. -/
def counterpartOf (name : Text) : Text :=
  ((scalarNames.find? (·.2.contains name)).map (·.1)).getD name

mutual

/-- The counterpart of a type, by its structure. -/
def treeCounterpart : TypeTree DottedName → Text
  | .named name => counterpartOf name.last
  | .generic name args =>
    if name.render ∈ listHeads then firstCounterpart args ++ ['[', ']'] else counterpartOf name.last
  | .array element => treeCounterpart element ++ ['[', ']']

/-- The counterpart of the first argument. -/
def firstCounterpart : TypeArguments DottedName → Text
  | .last t | .more t _ => treeCounterpart t

end

def SourceType.counterpart (t : SourceType) : Text := treeCounterpart t.tree

/-! ## The texts of types -/

variable {t name head : Text}

lemma isTypeChar_plain {c : Char} (h : isTypeChar c = true) :
    isBlank c = false ∧ isFlat c = true ∧ c ≠ ']' := by
  have hblank : isBlank c = false := by
    simp only [isTypeChar, Bool.or_eq_true, beq_iff_eq] at h
    rcases h with (hword | rfl) | rfl
    · exact isBlank_eq_false_of_isWord hword
    · decide
    · decide
  refine ⟨hblank, ?_, ?_⟩
  · rw [isFlat, Bool.not_eq_true', Bool.eq_false_iff]
    intro hc
    simp only [Bool.or_eq_true, beq_iff_eq] at hc
    rcases hc with ((rfl | rfl) | rfl) | rfl <;> cases h
  · rintro rfl
    cases h

/-- What the reader relies on in the text of a type. -/
structure IsReadable (t : Text) : Prop where
  ne_nil : t ≠ []
  head : ∀ c ∈ t.head?, isBlank c = false
  last : ∀ c ∈ t.getLast?, isBlank c = false
  oneLine : '\n' ∉ t
  nested : ∃ u, outside? 0 t = some u

lemma isReadable_of_chars (hne : t ≠ []) (h : ∀ c ∈ t, isTypeChar c = true) : IsReadable t where
  ne_nil := hne
  head c hc := (isTypeChar_plain (h c (mem_of_mem_head? hc))).1
  last c hc := (isTypeChar_plain (h c (mem_of_mem_getLast? hc))).1
  oneLine hc := absurd (h _ hc) (by decide)
  nested := ⟨t, outside?_of_flat fun c hc => (isTypeChar_plain (h c hc)).2.1⟩

lemma afterLast_append_cons (c : Char) (x y : Text) : afterLast c (x ++ c :: y) = afterLast c y := by
  have hreverse : (x ++ c :: y).reverse = y.reverse ++ c :: x.reverse := by simp
  have hstop : (c :: x.reverse).takeWhile (· ≠ c) = [] := takeWhile_cons_of_neg (by simp)
  rw [afterLast, hreverse, takeWhile_append, hstop, append_nil, afterLast]
  split_ifs with h
  · rw [IsPrefix.eq_of_length ( takeWhile_prefix _) h]
  · rfl

namespace DottedName

variable (n : DottedName)

lemma identifier_last : IsIdentifier n.last := by
  induction n with
  | simple _ identifier => exact identifier
  | qualified _ _ _ ih => exact ih

lemma afterLast_render : afterLast '.' n.render = n.last := by
  induction n with
  | simple part identifier => exact afterLast_of_not_mem fun hc => (identifier.chars _ hc).2 rfl
  | qualified part _ rest ih => rw [render, afterLast_append_cons, ih, last]

lemma chars_render : n.render ≠ [] ∧ ∀ c ∈ n.render, isTypeChar c = true := by
  induction n with
  | simple part identifier => exact ⟨identifier.ne_nil, fun c hc => (identifier.chars c hc).1⟩
  | qualified part identifier rest ih =>
    rw [render, forall_mem_append, forall_mem_cons]
    exact ⟨by simp, fun c hc => (identifier.chars c hc).1, rfl, ih.2⟩

lemma isReadable_render : IsReadable n.render := isReadable_of_chars n.chars_render.1 n.chars_render.2

end DottedName

lemma IsReadable.append {u v : Text} {c : Char} (h : IsReadable t) (hlast : u.getLast? = some c)
    (hblank : isBlank c = false) (hline : '\n' ∉ u) (hv : outside? 0 u = some v) : IsReadable (t ++ u) := by
  obtain ⟨w, hw⟩ := h.nested
  refine ⟨by simp [h.ne_nil], ?_, ?_, by simp [h.oneLine, hline], w ++ v, ?_⟩
  · rw [head?_append_of_ne_nil _ h.ne_nil]
    exact h.head
  · rw [getLast?_append, hlast]
    rintro _ ⟨⟩
    exact hblank
  · rw [(outside?_append hw u).1, hv]
    rfl

lemma getLast?_generic (x y : Text) : (x ++ '<' :: (y ++ ['>'])).getLast? = some '>' := by
  rw [← cons_append, ← append_assoc, getLast?_concat]

lemma IsReadable.generic {inner : Text} (h : IsReadable t) (hinner : IsReadable inner) :
    IsReadable (t ++ '<' :: (inner ++ ['>'])) := by
  obtain ⟨v, hv⟩ := hinner.nested
  exact h.append (getLast?_generic [] inner) (by decide) (by simp [hinner.oneLine]) (outside?_group hv [])

mutual

lemma isReadable_tree : (t : TypeTree DottedName) → IsReadable (t.render DottedName.render)
  | .named name => name.isReadable_render
  | .generic name args => name.isReadable_render.generic (isReadable_arguments args)
  | .array element => (isReadable_tree element).append rfl (by decide) (by decide)
      (outside?_of_flat (t := ['[', ']']) (by decide))

lemma isReadable_arguments : (args : TypeArguments DottedName) →
    IsReadable (args.render DottedName.render)
  | .last t => isReadable_tree t
  | .more t rest => by
    have hrest := isReadable_arguments rest
    obtain ⟨v, hv⟩ := hrest.nested
    have hmore : outside? 0 (',' :: ' ' :: rest.render DottedName.render) = some (',' :: ' ' :: v) := by
      rw [outside?_flat rfl, outside?_flat rfl, hv]
      rfl
    have hlast := getLast?_eq_some_getLast hrest.ne_nil
    exact (isReadable_tree t).append ((getLast?_append_of_ne_nil [',', ' '] hrest.ne_nil).trans hlast)
      (hrest.last _ hlast) (by simp [hrest.oneLine]) hmore

end

/-! ## Reading -/

lemma arrayElement?_append (t : Text) : arrayElement? (t ++ ['[', ']']) = some t := by
  have hend : endsWith "[]" (t ++ ['[', ']']) = true := isSuffixOf_iff_suffix.2 (suffix_append _ _)
  rw [arrayElement?, if_pos hend, length_append]
  exact congrArg some take_left

lemma arrayElement?_eq_none (h : t.getLast? ≠ some ']') : arrayElement? t = none := by
  refine if_neg fun hend => h ?_
  obtain ⟨start, rfl⟩ := isSuffixOf_iff_suffix.1 hend
  exact getLast?_append_of_ne_nil _ (by decide)

lemma listHead?_append (h : head ∈ listHeads) (r : Text) : listHead? (head ++ '<' :: r) = some r := by
  simp only [listHeads, mem_cons, not_mem_nil, or_false] at h
  rcases h with rfl | rfl | rfl | rfl | rfl | rfl | rfl <;> rfl

lemma listHead?_eq_some {r : Text} (h : listHead? t = some r) :
    ∃ head ∈ listHeads, ∃ gap, t = head ++ gap ++ '<' :: r ∧ ∀ c ∈ gap, isBlank c = true := by
  obtain ⟨head, hmem, hread⟩ := exists_of_findSome?_eq_some h
  obtain ⟨s, hs, hr⟩ := bind_eq_some_iff.1 hread
  obtain ⟨gap, hgap, hblank⟩ := blanks_eq s
  refine ⟨head, hmem, gap, ?_, hblank⟩
  rw [literal?_eq_some.1 hs, hgap, literal?_eq_some.1 hr]
  simp

lemma listHead?_eq_none {r : Text} (hname : ∀ c ∈ name, isTypeChar c = true)
    (hr : r = [] ∨ r.head? = some '<' ∧ name ∉ listHeads) : listHead? (name ++ r) = none := by
  refine eq_none_iff_forall_ne_some.2 fun rest h => ?_
  obtain ⟨head, hhead, gap, heq, hgap⟩ := listHead?_eq_some h
  -- Both are what stands before the first bracket, or the whole text if there is none.
  have hstart : name = head ++ gap := by
    have hne : ∀ c ∈ name, decide (c ≠ '<') = true := fun c hc =>
      decide_eq_true fun hc' => by cases hc' ▸ hname c hc
    have hne' : ∀ c ∈ head ++ gap, decide (c ≠ '<') = true := by
      have hheads : ∀ head ∈ listHeads, '<' ∉ head := by decide
      refine fun c hc => decide_eq_true fun hc' => ?_
      rw [hc'] at hc
      rcases mem_append.1 hc with hc | hc
      · exact hheads head hhead hc
      · cases hgap _ hc
    have htake := congrArg (takeWhile (· ≠ '<')) heq
    rw [takeWhile_append_of_pos hne, takeWhile_append_of_pos hne', takeWhile_cons_of_neg (by simp),
      append_nil] at htake
    rw [← htake]
    rcases hr with rfl | ⟨hr, -⟩
    · exact (append_nil name).symm
    · obtain ⟨r, rfl⟩ := head?_eq_some_iff.1 hr
      rw [takeWhile_cons_of_neg (by simp), append_nil]
  have hnil : gap = [] := eq_nil_iff_forall_not_mem.2 fun c hc => by
    have hblank := (isTypeChar_plain (hname c (hstart ▸ mem_append_right head hc))).1
    rw [hgap c hc] at hblank
    cases hblank
  rw [hnil, append_nil] at hstart
  rcases hr with rfl | ⟨-, hother⟩
  · rw [hstart] at heq
    simpa using congrArg length heq
  · exact hother (hstart ▸ hhead)

lemma elementType?_eq_none {r : Text} (hname : ∀ c ∈ name, isTypeChar c = true)
    (hr : r = [] ∨ r.head? = some '<' ∧ name ∉ listHeads) (hlast : (name ++ r).getLast? ≠ some ']') :
    elementType? (name ++ r) = none := by
  rw [elementType?, arrayElement?_eq_none hlast, listElement?, listHead?_eq_none hname hr]
  rfl

lemma elementType?_list (h : head ∈ listHeads) (ht : IsReadable t) :
    elementType? (head ++ '<' :: (t ++ ['>'])) = some t := by
  have htrim : trim t = t := trim_eq_self ht.head ht.last
  rw [elementType?, arrayElement?_eq_none (by rw [getLast?_generic]; decide), listElement?, listHead?_append h,
    bind_some, dropFinal?_eq_some_iff.2 rfl, filter_some, if_pos]
  · rfl
  · obtain ⟨c, r, rfl⟩ := exists_cons_of_ne_nil ht.ne_nil
    have hline := ht.oneLine
    rw [mem_cons, not_or] at hline
    rw [htrim]
    simp [onOneLine, hline, Ne.symm hline.1]

lemma typeName_eq (h : IsReadable t) :
    typeName t = (elementType? t).elim (scalarName t) fun element => typeName element ++ ['[', ']'] := by
  have htrim : trim t = t := trim_eq_self h.head h.last
  rw [typeName, if_neg (by simp [h.ne_nil])]
  split
  next element helement =>
    rw [htrim] at helement
    rw [helement]
    rfl
  next hnone =>
    rw [htrim] at hnone
    rw [hnone, htrim]
    rfl

lemma scalarName_eq {n : DottedName} (h : outside? 0 t = some n.render) : scalarName t = counterpartOf n.last := by
  rw [← n.afterLast_render, ← stripGenerics_of_outside? h]
  rfl

lemma OneElement.typeName_eq {tree : TypeTree DottedName} (h : OneElement tree) :
    typeName (tree.render DottedName.render) = treeCounterpart tree := by
  have hread := isReadable_tree tree
  induction h with
  | named name =>
    have hchars := name.chars_render.2
    have hnone := elementType?_eq_none hchars (.inl rfl) fun hlast =>
      (isTypeChar_plain (hchars _ (by simpa using mem_of_mem_getLast? hlast))).2.2 rfl
    rw [append_nil] at hnone
    rw [TypeTree.render, TypeScript.typeName_eq name.isReadable_render, hnone]
    exact scalarName_eq (outside?_of_flat fun c hc => (isTypeChar_plain (hchars c hc)).2.1)
  | @generic name other args =>
    have hchars := name.chars_render.2
    obtain ⟨u, hu⟩ := (isReadable_arguments args).nested
    have hname := outside?_of_flat fun c hc => (isTypeChar_plain (hchars c hc)).2.1
    rw [TypeScript.typeName_eq hread, TypeTree.render,
      elementType?_eq_none hchars (.inr ⟨rfl, other⟩) (by rw [getLast?_generic]; decide), treeCounterpart,
      if_neg other]
    refine scalarName_eq ((outside?_append hname _).1.trans ?_)
    rw [outside?_group hu]
    exact congrArg some (append_nil _)
  | @list name element known _ ih =>
    have helement := isReadable_tree element
    rw [TypeScript.typeName_eq hread, TypeTree.render, TypeArguments.render, elementType?_list known helement,
      treeCounterpart, if_pos known, firstCounterpart, ← ih helement]
    rfl
  | @array element _ ih =>
    rw [TypeScript.typeName_eq hread, TypeTree.render, elementType?, arrayElement?_append, treeCounterpart,
      ← ih (isReadable_tree element)]
    rfl

/-! ## What comes out -/

lemma IsIdentifier.counterpartOf (h : IsIdentifier name) : IsIdentifier (counterpartOf name) := by
  rw [TypeScript.counterpartOf]
  cases hfound : scalarNames.find? (·.2.contains name) with
  | none => exact h
  | some entry =>
    have hentries : ∀ e ∈ scalarNames, e.1 ≠ [] ∧ (∀ c ∈ e.1, isTypeChar c = true ∧ c ≠ '.') ∧
        ∀ c ∈ e.1.head?, isDecimal c = false := by decide
    obtain ⟨hne, hchars, hstart⟩ := hentries entry (mem_of_find?_eq_some hfound)
    exact ⟨hne, hchars, hstart⟩

lemma OneElement.exists_identifier {tree : TypeTree DottedName} (h : OneElement tree) :
    ∃ word n, IsIdentifier word ∧ treeCounterpart tree = word ++ (replicate n ['[', ']']).flatten := by
  induction h with
  | named name => exact ⟨_, 0, name.identifier_last.counterpartOf, (append_nil _).symm⟩
  | @generic name other _ => exact ⟨_, 0, name.identifier_last.counterpartOf, (if_neg other).trans (append_nil _).symm⟩
  | list known _ ih | array _ ih =>
    obtain ⟨word, n, hword, heq⟩ := ih
    refine ⟨word, n + 1, hword, ?_⟩
    simp_all [treeCounterpart, firstCounterpart, replicate_succ', flatten_append]

/-- **Types are mapped by their structure**: an array of something and a list of something become
arrays of its counterpart, and any other type becomes the counterpart of the last part of its name.
What comes out is an identifier with array brackets behind it. -/
theorem typeName_render (t : SourceType) : typeName t.render = t.counterpart ∧
    ∃ word n, IsIdentifier word ∧ t.counterpart = word ++ (List.replicate n ['[', ']']).flatten :=
  ⟨t.lists.typeName_eq, t.lists.exists_identifier⟩

end Restage.TypeScript
