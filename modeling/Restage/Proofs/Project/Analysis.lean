import Restage.Project.Analysis
import Restage.Proofs.Java.Generics
import Restage.Proofs.Java.OneLine

/-!
# How the analysis follows the braces

The analysis decides by the brace depth alone which class a member belongs to, and it looks for
classes that have ended only where it finds no declaration.  A statement that ends a method and its
class at once leaves the class open, and what follows is entered into it.  So what the records say
is tied to the source only if the braces are laid out as usual, each closing brace with a statement
of its own.  `TidyFrom` says so.

For such statements the classes that are open lie one inside the other and none of them deeper than
the source is, and a method is open in the innermost of them (`Analysis.Orderly`).  `Analysis.Step`
lists what a statement can do to the state of the analysis.
-/

namespace Restage

open Text Java List Option

variable {w r : Text} {p : Char → Bool}

/-! ## Tidy statements -/

/-- Whether a statement declares something, or has nothing but annotations. -/
def Java.Statement.isDeclaration (s : Statement) : Bool :=
  let text := (splitAnnotations s.text).2
  (package? s.text).isSome || (import? s.text).isSome || text.isEmpty
  || (classHeader? (stripGenerics text)).isSome || (constructorShape? text).isSome
  || (method? text).isSome || (field? text).isSome

/-- The braces of a statement are laid out as usual: none of them closes what is not open, at most
one more is closed than is opened and then nothing is declared, and the header of a class that ends
at once opens no other brace. -/
structure Java.Statement.Tidy (depth : Nat) (s : Statement) : Prop where
  covered : s.closes ≤ depth + s.opens
  single : s.closes ≤ s.opens + 1
  plain : s.opens < s.closes → s.isDeclaration = false
  whole : ∀ h ∈ classHeader? (stripGenerics (splitAnnotations s.text).2),
    startsWith "\x7d" (trim h.rest) = true → s.opens ≤ s.closes

instance (depth : Nat) (s : Statement) : Decidable (s.Tidy depth) :=
  decidable_of_iff
    (s.closes ≤ depth + s.opens ∧ s.closes ≤ s.opens + 1 ∧
      (s.opens < s.closes → s.isDeclaration = false) ∧
      ∀ h ∈ classHeader? (stripGenerics (splitAnnotations s.text).2),
        startsWith "\x7d" (trim h.rest) = true → s.opens ≤ s.closes)
    ⟨fun h => ⟨h.1, h.2.1, h.2.2.1, h.2.2.2⟩, fun h => ⟨h.covered, h.single, h.plain, h.whole⟩⟩

/-- The statements from the given depth on are tidy; comments are passed over. -/
def Java.TidyFrom (depth : Nat) : List Statement → Prop
  | [] => True
  | s :: rest =>
    if s.isComment then TidyFrom depth rest
    else s.Tidy depth ∧ TidyFrom (depth + s.opens - s.closes) rest

instance Java.decidableTidyFrom : ∀ depth statements, Decidable (TidyFrom depth statements)
  | _, [] => inferInstanceAs (Decidable True)
  | depth, s :: rest =>
    have := decidableTidyFrom depth rest
    have := decidableTidyFrom (depth + s.opens - s.closes) rest
    inferInstanceAs (Decidable (if s.isComment then TidyFrom depth rest
      else s.Tidy depth ∧ TidyFrom (depth + s.opens - s.closes) rest))

/-! ## Closers -/

/-- A text of closing braces, closing parentheses and semicolons. -/
def Text.Closers (t : Text) : Prop := ∀ c ∈ t, c = '\x7d' ∨ c = ')' ∨ c = ';'

section Closers

variable {t : Text}

lemma run?_eq_none_of_closers (hp : p '\x7d' = false ∧ p ')' = false ∧ p ';' = false)
    (h : Closers t) : run? p t = none := by
  cases t with
  | nil => rfl
  | cons c r =>
    have hc : p c = false := by
      rcases h c (by simp) with rfl | rfl | rfl
      · exact hp.1
      · exact hp.2.1
      · exact hp.2.2
    simp [run?, hc]

lemma literal?_eq_none_of_closers {c : Char} (hc : c ≠ '\x7d' ∧ c ≠ ')' ∧ c ≠ ';') (h : Closers t) : literal? (c :: w) t = none := by
  cases t with
  | nil => rfl
  | cons d r =>
    have hne : c ≠ d := by
      rcases h d (by simp) with rfl | rfl | rfl
      · exact hc.1
      · exact hc.2.1
      · exact hc.2.2
    simp [literal?_cons_cons, hne]

lemma Text.Closers.mono {u : Text} (h : Closers t) (hu : u ⊆ t) : Closers u := fun c hc => h c (hu hc)

lemma classHeader?_eq_none_of_closers (h : Closers t) : classHeader? t = none := by
  rw [classHeader?, findSome?_eq_none_iff]
  intro start hstart
  have hclosers := h.mono (modifierEnds_subset hstart)
  have hkind : oneOf? ["class", "interface", "enum"] start = none := by
    simp only [oneOf?, findSome?_eq_none_iff, map_eq_none_iff]
    intro w hw
    simp only [mem_cons, not_mem_nil, or_false] at hw
    rcases hw with rfl | rfl | rfl <;> exact literal?_eq_none_of_closers (by decide) hclosers
  rw [hkind]
  rfl

lemma typeEnds_eq_nil_of_closers (h : Closers t) : typeEnds t = [] := by
  rw [typeEnds, run?_eq_none_of_closers (by decide) h]

lemma field?_eq_none_of_closers (h : Closers t) : field? t = none := by
  have hshape : fieldShape? t = none := by
    rw [fieldShape?, findSome?_eq_none_iff]
    intro start hstart
    rw [typeEnds_eq_nil_of_closers (h.mono (modifierEnds_subset hstart))]
    rfl
  rw [field?, hshape]
  rfl

lemma splitAnnotations_of_closers (h : Closers t) : (splitAnnotations t).1 = [] := by
  rw [splitAnnotations_of_head? fun hat => ?_]
  exact absurd (h '@' (trim_subset t (mem_of_mem_head? hat))) (by decide)

end Closers

/-! ## Headings

The body of a class starts with a brace, and no package or import declaration holds one. -/

/-- The header of the class, interface or enumeration that a statement declares. -/
def Java.Statement.classHeader? (s : Statement) : Option ClassHeader :=
  Java.classHeader? (stripGenerics (splitAnnotations s.text).2)

/-- A class whose body ends right after it starts. -/
def Java.ClassHeader.EndsAtOnce (h : ClassHeader) : Prop :=
  h.kind = "class".toList ∧ startsWith "\x7d" (trim h.rest) = true

instance (h : ClassHeader) : Decidable h.EndsAtOnce := inferInstanceAs (Decidable (_ ∧ _))

variable {h : ClassHeader} {f : OpenClass → OpenClass}

section Headings

variable {t : Text} {c : Char}

lemma mem_of_literal? (h : literal? w t = some r) (hc : c ∈ t) : c ∈ w ∨ c ∈ r := by
  rw [← append_eq_of_isPrefixOf?_eq_some h] at hc
  exact mem_append.1 hc

lemma mem_blanks (hc : c ∈ t) (hblank : isBlank c = false) : c ∈ blanks t := by
  rw [← takeWhile_append_dropWhile (p := isBlank) (l := t)] at hc
  refine (mem_append.1 hc).resolve_left fun hmem => ?_
  rw [mem_takeWhile_imp hmem] at hblank
  cases hblank

lemma mem_of_someBlanks? (h : someBlanks? t = some r) (hc : c ∈ t) (hblank : isBlank c = false) : c ∈ r := by
  cases t with
  | nil => cases h
  | cons d u =>
    rw [someBlanks?] at h
    split_ifs at h with hd
    cases h
    rcases mem_cons.1 hc with rfl | hc
    · rw [hd] at hblank
      cases hblank
    · exact mem_blanks hc hblank

lemma mem_of_run? {a : Text} (h : run? p t = some (a, r)) (hc : c ∈ t) (hp : p c = false) : c ∈ r := by
  cases t with
  | nil => cases h
  | cons d u =>
    rw [run?] at h
    split_ifs at h with hd
    cases h
    rcases mem_cons.1 hc with rfl | hc
    · rw [hd] at hp
      cases hp
    · rw [← takeWhile_append_dropWhile (p := p) (l := u)] at hc
      refine (mem_append.1 hc).resolve_left fun hmem => ?_
      rw [mem_takeWhile_imp hmem] at hp
      cases hp

lemma not_brace_of_ending {r' : Text} (h : literal? ";" (blanks r) = some r')
    (hend : atEnd r' = true) : '\x7b' ∉ r := by
  intro hc
  rcases mem_of_literal? h (mem_blanks hc (by decide)) with hc | hc
  · exact absurd hc (by decide)
  · rcases Bool.or_eq_true_iff.1 hend with hnil | hline
    · rw [isEmpty_iff.1 hnil] at hc
      cases hc
    · rw [eq_of_beq hline] at hc
      exact absurd hc (by decide)

lemma package?_eq_none_of_brace (hc : '\x7b' ∈ t) : package? t = none := by
  by_contra hsome
  obtain ⟨name, hname⟩ := ne_none_iff_exists'.1 hsome
  obtain ⟨r, hr, hname⟩ := bind_eq_some_iff.1 hname
  obtain ⟨u, hu, hr⟩ := bind_eq_some_iff.1 hr
  obtain ⟨⟨dotted, rest⟩, hdotted, hname⟩ := bind_eq_some_iff.1 hname
  obtain ⟨last, hlast, hname⟩ := bind_eq_some_iff.1 hname
  split_ifs at hname with hend
  have hu : '\x7b' ∈ u := (mem_of_literal? hu hc).resolve_left (by decide)
  have hr : '\x7b' ∈ r := mem_of_someBlanks? hr hu (by decide)
  exact not_brace_of_ending hlast hend (mem_of_run? hdotted hr (by decide))

lemma importedName?_eq_none_of_brace (hc : '\x7b' ∈ t) : importedName? t = none := by
  have hending : ∀ {r name : Text}, '\x7b' ∈ r → ((literal? ";" (blanks r)).bind fun last =>
      if atEnd last then some name else none) = none := by
    intro r name hr
    rw [bind_eq_none_iff]
    intro last hlast
    rw [if_neg]
    exact fun hend => not_brace_of_ending hlast hend hr
  rw [importedName?]
  cases hdotted : run? isDotted t with
  | none => rfl
  | some found =>
    obtain ⟨name, rest⟩ := found
    have hrest : '\x7b' ∈ rest := mem_of_run? hdotted hc (by decide)
    rw [bind_eq_bind, bind_some]
    dsimp only
    split
    · split_ifs
      · exact hending ((mem_cons.1 hrest).resolve_left (by decide))
      · rfl
    · exact hending hrest

lemma import?_eq_none_of_brace (hc : '\x7b' ∈ t) : import? t = none := by
  by_contra hsome
  obtain ⟨name, hname⟩ := ne_none_iff_exists'.1 hsome
  obtain ⟨r, hr, hname⟩ := bind_eq_some_iff.1 hname
  obtain ⟨u, hu, hr⟩ := bind_eq_some_iff.1 hr
  have hu : '\x7b' ∈ u := (mem_of_literal? hu hc).resolve_left (by decide)
  have hr : '\x7b' ∈ r := mem_of_someBlanks? hr hu (by decide)
  rw [importedName?_eq_none_of_brace hr, or_none] at hname
  obtain ⟨v, hv, hname⟩ := bind_eq_some_iff.1 hname
  obtain ⟨x, hx, hv⟩ := bind_eq_some_iff.1 hv
  have hx : '\x7b' ∈ x := (mem_of_literal? hx hr).resolve_left (by decide)
  rw [importedName?_eq_none_of_brace (mem_of_someBlanks? hv hx (by decide))] at hname
  cases hname

lemma moreNames_subset (n : Nat) (t : Text) : moreNames n t ⊆ t := by
  induction n generalizing t with
  | zero => exact Subset.refl t
  | succ n ih =>
    rw [moreNames]
    split
    · rename_i rest hnext
      obtain ⟨r, hr, hrun⟩ := bind_eq_some_iff.1 hnext
      have hrest : rest ⊆ r := Subset.trans (run?_subset hrun) (blanks_subset r)
      have hr : r ⊆ t := Subset.trans (literal?_subset hr) (blanks_subset t)
      exact Subset.trans (ih rest) (Subset.trans hrest hr)
    · exact Subset.refl t

lemma optionalClause_subset (word t : Text) : (optionalClause word t).2 ⊆ t := by
  rw [optionalClause]
  split
  · rename_i names rest hclause
    obtain ⟨u, hu, hclause⟩ := bind_eq_some_iff.1 hclause
    obtain ⟨r, hr, hclause⟩ := bind_eq_some_iff.1 hclause
    obtain ⟨v, hv, hr⟩ := bind_eq_some_iff.1 hr
    obtain ⟨⟨dotted, after⟩, hdotted, hclause⟩ := bind_eq_some_iff.1 hclause
    cases hclause
    have hafter : after ⊆ v := Subset.trans (run?_subset hdotted) (someBlanks?_subset hr)
    have hv : v ⊆ t := Subset.trans (literal?_subset hv) (someBlanks?_subset hu)
    exact Subset.trans (moreNames_subset _ after) (Subset.trans hafter hv)
  · exact Subset.refl t

lemma classHeader?_parts (hheader : classHeader? t = some h) : isWordText h.name = true ∧ '\x7b' ∈ t := by
  obtain ⟨start, hstart, hread⟩ := exists_of_findSome?_eq_some hheader
  obtain ⟨⟨kind, r⟩, hkind, hread⟩ := bind_eq_some_iff.1 hread
  obtain ⟨⟨name, u⟩, hname, hread⟩ := bind_eq_some_iff.1 hread
  obtain ⟨v, hv, hname⟩ := bind_eq_some_iff.1 hname
  obtain ⟨body, hbody, hread⟩ := bind_eq_some_iff.1 hread
  obtain ⟨_, -, hread⟩ := bind_eq_some_iff.1 hread
  cases hread
  obtain ⟨w, -, hkind⟩ := exists_of_findSome?_eq_some hkind
  obtain ⟨_, hkind, hpair⟩ := map_eq_some_iff.1 hkind
  cases hpair
  rw [word?] at hname
  have hbrace : '\x7b' ∈ blanks (optionalClause "implements" (optionalClause "extends" u).2).2 := by
    have happend := append_eq_of_isPrefixOf?_eq_some hbody
    exact happend ▸ mem_cons_self
  have hclauses : (optionalClause "implements" (optionalClause "extends" u).2).2 ⊆ u :=
    Subset.trans (optionalClause_subset _ _) (optionalClause_subset _ _)
  have hu : u ⊆ r := Subset.trans (run?_subset hname) (someBlanks?_subset hv)
  have hr : r ⊆ t := Subset.trans (literal?_subset hkind) (modifierEnds_subset hstart)
  exact ⟨isWordText_of_word? hname, hr (hu (hclauses (blanks_subset _ hbrace)))⟩

lemma noHeading_of_classHeader? {s : Statement} (hheader : s.classHeader? = some h) :
    (package? s.text = none ∧ import? s.text = none) ∧ (splitAnnotations s.text).2.isEmpty = false := by
  have hbrace := (stripGenerics_sublist _).subset (classHeader?_parts hheader).2
  have hmem := splitAnnotations_subset s.text hbrace
  refine ⟨⟨package?_eq_none_of_brace hmem, import?_eq_none_of_brace hmem⟩, ?_⟩
  cases htext : (splitAnnotations s.text).2 with
  | nil =>
    rw [htext] at hbrace
    cases hbrace
  | cons => rfl

end Headings

/-! ## What a statement does -/

namespace Analysis

/-- The state after the braces of a statement have been counted. -/
def counted (a : Analysis) (s : Statement) : Analysis := { a with depth := a.depth + s.balance }

/-- A statement stands directly in the body of the innermost class, or it stands outside of all
classes and is no package or import declaration. -/
structure AtLevel (a : Analysis) (s : Statement) : Prop where
  level : a.atMemberLevel a.depth = true
  noHeading : a.stack = [] → package? s.text = none ∧ import? s.text = none

/-- A statement declares nothing in the body of a class of the given name. -/
structure DeclaresNothing (s : Statement) (name : Text) : Prop where
  text : (splitAnnotations s.text).2.isEmpty = false
  noClass : s.classHeader? = none
  noMethod : signature? (some name) (splitAnnotations s.text).2 = none
  noField : field? (splitAnnotations s.text).2 = none

/-- What a statement that is no comment does to the analysis. -/
inductive Step (a : Analysis) (s : Statement) : Analysis → Prop
  /-- It stands in the body of a method. -/
  | inBody (m : OpenMethod) : a.method = some m → ¬(a.counted s).depth ≤ m.openDepth →
      Step a s { a.counted s with method := some { m with body := m.body ++ s.rawLines } }
  | endsBody (m : OpenMethod) (info : MethodInfo) : a.method = some m →
      (a.counted s).depth ≤ m.openDepth →
      info = { m.info with
        rawBody := if s.text = "\x7d".toList then m.body else m.body ++ s.rawLines } →
      Step a s { (a.counted s).addMethod info with method := none }
  /-- It does not stand directly in the body of a class. -/
  | elsewhere : a.method = none → a.atMemberLevel a.depth = false → Step a s (a.counted s).closeClasses
  /-- It is a package or import declaration. -/
  | heading (package : Text) (imports : List Text) : a.method = none → a.stack = [] →
      (package? s.text).isSome = true ∨ (import? s.text).isSome = true →
      Step a s { a.counted s with package, imports }
  /-- It has nothing but annotations. -/
  | annotations : a.method = none → a.AtLevel s →
      (splitAnnotations s.text).2.isEmpty = true →
      Step a s { a.counted s with pending := a.pending ++ (splitAnnotations s.text).1 }
  | declaresClass (h : ClassHeader) : a.method = none → a.AtLevel s →
      (splitAnnotations s.text).2.isEmpty = false →
      classHeader? (stripGenerics (splitAnnotations s.text).2) = some h →
      Step a s ({ a.counted s with pending := [] }.declareClass a.depth s.line h)
  | declaresMethod (c : OpenClass) (outer : List OpenClass) (sig : Signature)
      (annotations : List Text) : a.method = none → a.stack = c :: outer → a.depth = c.bodyDepth →
      signature? (some c.name) (splitAnnotations s.text).2 = some sig →
      annotations = a.pending ++ (splitAnnotations s.text).1 →
      Step a s ({ a.counted s with pending := [] }.declareMethod a.depth sig annotations)
  | declaresField (c : OpenClass) (outer : List OpenClass) (f : FieldHeader) : a.method = none →
      a.stack = c :: outer → a.depth = c.bodyDepth → (splitAnnotations s.text).2.isEmpty = false →
      classHeader? (stripGenerics (splitAnnotations s.text).2) = none →
      signature? (some c.name) (splitAnnotations s.text).2 = none →
      field? (splitAnnotations s.text).2 = some f →
      Step a s ({ a.counted s with pending := [] }.addField
        (fieldInfo f (a.pending ++ (splitAnnotations s.text).1)))
  | other : a.method = none → a.AtLevel s → (∀ c ∈ a.stack.head?, DeclaresNothing s c.name) →
      Step a s { a.counted s with pending := [] }.closeClasses

variable {a : Analysis} {s : Statement} {depth : Nat} {c : OpenClass} {inner outer : List OpenClass}

lemma atMemberLevel_iff (hstack : a.stack = c :: outer) (depth : Int) :
    a.atMemberLevel depth = true ↔ depth = c.bodyDepth := by
  rw [atMemberLevel, hstack]
  exact decide_eq_true_iff

/-- A statement that does not stand directly in the body of a class stands deeper in one. -/
lemma exists_of_atMemberLevel_eq_false {depth : Int} (hlevel : a.atMemberLevel depth = false) :
    ∃ c outer, a.stack = c :: outer ∧ depth ≠ c.bodyDepth := by
  rw [atMemberLevel] at hlevel
  split at hlevel
  · cases hlevel
  · rename_i c outer hstack
    exact ⟨c, outer, hstack, of_decide_eq_false hlevel⟩

lemma member_step (hmethod : a.method = none)
    (hheading : a.stack = [] → package? s.text = none ∧ import? s.text = none) :
    Step a s ((a.counted s).member a.depth s) := by
  have hlevel : (a.counted s).atMemberLevel a.depth = a.atMemberLevel a.depth := rfl
  rw [member, hlevel]
  by_cases hmember : a.atMemberLevel a.depth = true
  · rw [if_pos hmember]
    dsimp only
    by_cases htext : (splitAnnotations s.text).2.isEmpty = true
    · rw [if_pos htext]
      exact .annotations hmethod ⟨hmember, hheading⟩ htext
    rw [if_neg htext]
    -- What is declared depends on the classes that are open, and on nothing else in the state.
    obtain ⟨cleared, hcleared⟩ : ∃ b, b = { a.counted s with pending := [] } := ⟨_, rfl⟩
    have hstack : cleared.stack = a.stack := by
      rw [hcleared]
      rfl
    rw [← hcleared, declare?]
    cases hheader : classHeader? (stripGenerics (splitAnnotations s.text).2) with
    | some h =>
      rw [hcleared]
      exact .declaresClass h hmethod ⟨hmember, hheading⟩ (by simpa using htext) hheader
    | none =>
      rw [hstack]
      cases hclasses : a.stack with
      | nil =>
        rw [hcleared]
        exact .other hmethod ⟨hmember, hheading⟩ (by simp [hclasses])
      | cons c outer =>
        have hdepth := (atMemberLevel_iff hclasses a.depth).1 hmember
        dsimp only
        cases hsig : signature? (some c.name) (splitAnnotations s.text).2 with
        | some sig =>
          rw [hcleared]
          exact .declaresMethod c outer sig _ hmethod hclasses hdepth hsig rfl
        | none =>
          rw [hcleared]
          cases hfield : field? (splitAnnotations s.text).2 with
          | some f =>
            exact .declaresField c outer f hmethod hclasses hdepth (by simpa using htext)
              hheader hsig hfield
          | none =>
            refine .other hmethod ⟨hmember, hheading⟩ ?_
            rw [hclasses]
            rintro _ ⟨⟩
            exact ⟨by simpa using htext, hheader, hsig, hfield⟩
  · rw [if_neg hmember]
    exact .elsewhere hmethod (by simpa using hmember)

lemma step_eq (hcode : s.isComment = false) :
    a.step s = match a.method with
      | some m => (a.counted s).inMethod m s
      | none => if a.stack.isEmpty then (a.counted s).outside a.depth s
        else (a.counted s).member a.depth s := by
  rw [step, if_neg (by simp [hcode])]
  rfl

/-- **The inversion.**  Every statement that is no comment does one of these things. -/
lemma step_step (hcode : s.isComment = false) : Step a s (a.step s) := by
  rw [step_eq hcode]
  cases hmethod : a.method with
  | some m =>
    dsimp only
    rw [inMethod]
    by_cases hdepth : (a.counted s).depth ≤ m.openDepth
    · rw [if_pos hdepth]
      exact .endsBody m _ hmethod hdepth rfl
    · rw [if_neg hdepth]
      exact .inBody m hmethod hdepth
  | none =>
    split_ifs with hempty
    · have hstack : a.stack = [] := isEmpty_iff.1 hempty
      rw [outside]
      cases hpackage : package? s.text with
      | some name => exact .heading name a.imports hmethod hstack (.inl (by rw [hpackage]; rfl))
      | none =>
        cases himport : import? s.text with
        | some name =>
          exact .heading a.package (a.imports ++ [name]) hmethod hstack (.inr (by rw [himport]; rfl))
        | none => exact member_step hmethod fun _ => ⟨hpackage, himport⟩
    · exact member_step hmethod fun hstack => absurd (isEmpty_iff.2 hstack) hempty

lemma step_comment (hcomment : s.isComment = true) :
    a.step s = { a with method := a.method.map fun m => { m with body := m.body ++ s.rawLines } } := by
  rw [step, if_pos hcomment]

lemma step_of_classHeader (hmethod : a.method = none) (hstack : a.stack = []) (hcode : s.isComment = false)
    (hheader : s.classHeader? = some h) :
    a.step s = { a.counted s with pending := [] }.declareClass a.depth s.line h := by
  obtain ⟨hheading, htext⟩ := noHeading_of_classHeader? hheader
  rw [Statement.classHeader?] at hheader
  have hoff : a.step s = (a.counted s).outside a.depth s := by
    rw [step_eq hcode, hmethod, hstack]
    rfl
  have hlevel : (a.counted s).atMemberLevel a.depth = true := by
    have hsame : (a.counted s).stack = [] := hstack
    rw [atMemberLevel, hsame]
  rw [hoff, outside, hheading.1]
  dsimp only
  rw [hheading.2]
  dsimp only
  rw [member, if_pos hlevel]
  dsimp only
  rw [if_neg (by simp [htext]), declare?, hheader]
  rfl

lemma depth_step (hcode : s.isComment = false) : (a.step s).depth = a.depth + s.balance := by
  have hstep : Step a s (a.step s) := step_step hcode
  generalize a.step s = a' at hstep
  have htop : ∀ (b : Analysis) (f : OpenClass → OpenClass), (b.updateTop f).depth = b.depth := by
    intro b f
    rw [updateTop]
    split <;> rfl
  cases hstep with
  | inBody | elsewhere | heading | annotations | other => rfl
  | endsBody m info => exact htop (a.counted s) _
  | declaresClass header =>
    rw [declareClass]
    split_ifs <;> rfl
  | declaresMethod =>
    rw [declareMethod]
    split_ifs
    · rfl
    · exact htop { a.counted s with pending := [] } _
  | declaresField => exact htop { a.counted s with pending := [] } _

/-! ## Classes that are open -/

/-- The depths of the bodies of the classes that are open, the innermost first. -/
def depths (a : Analysis) : List Int := a.stack.map (·.bodyDepth)

lemma mem_depths (hstack : a.stack = c :: outer) :
    c.bodyDepth ∈ a.depths := by
  rw [depths, hstack]
  exact mem_cons_self

lemma leave_eq (depth : Int) (stack : List OpenClass) :
    leave depth stack =
      (stack.takeWhile (depth < ·.bodyDepth), stack.dropWhile (depth < ·.bodyDepth)) := by
  induction stack with
  | nil => rfl
  | cons c outer ih =>
    rw [leave]
    split_ifs with hdepth
    · rw [ih, takeWhile_cons_of_pos (by simpa using hdepth),
        dropWhile_cons_of_pos (by simpa using hdepth)]
    · rw [takeWhile_cons_of_neg (by simpa using hdepth), dropWhile_cons_of_neg (by simpa using hdepth)]

lemma stack_closeClasses (a : Analysis) :
    a.closeClasses.stack = a.stack.dropWhile (a.depth < ·.bodyDepth) := by
  rw [closeClasses, leave_eq]

lemma finished_closeClasses (a : Analysis) :
    a.closeClasses.finished = a.finished ++ a.stack.takeWhile (a.depth < ·.bodyDepth) := by
  rw [closeClasses, leave_eq]

lemma updateTop_eq (a : Analysis) (f : OpenClass → OpenClass) :
    a.updateTop f = { a with stack := a.stack.modifyHead f } := by
  obtain ⟨package, imports, finished, stack, method, pending, depth⟩ := a
  cases stack <;> rfl

lemma depths_updateTop (a : Analysis) (hf : ∀ c, (f c).bodyDepth = c.bodyDepth) :
    (a.updateTop f).depths = a.depths := by
  rw [depths, updateTop_eq, depths]
  cases a.stack with
  | nil => rfl
  | cons c outer => simp [hf]

lemma depths_addMethod (a : Analysis) (m : MethodInfo) : (a.addMethod m).depths = a.depths :=
  a.depths_updateTop fun _ => rfl

lemma depths_addField (a : Analysis) (f : FieldInfo) : (a.addField f).depths = a.depths :=
  a.depths_updateTop fun _ => rfl

/-- The classes that are open lie one in the other and none deeper than the source is, and a method
is open in the innermost of them. -/
structure Orderly (a : Analysis) : Prop where
  le_depth : ∀ d ∈ a.depths, d ≤ a.depth
  deeper : a.depths.Pairwise (· > ·)
  inMethod : ∀ m ∈ a.method, a.depths.head? = some m.openDepth ∧ m.openDepth < a.depth

lemma isDeclaration_of_signature? {name : Option Text} {sig : Signature}
    (h : signature? name (splitAnnotations s.text).2 = some sig) : s.isDeclaration = true := by
  have hshape : (constructorShape? (splitAnnotations s.text).2).isSome = true ∨
      (method? (splitAnnotations s.text).2).isSome = true := by
    rw [signature?] at h
    split at h
    · exact .inr (by rw [h]; rfl)
    · rcases or_eq_some_iff.1 h with h | ⟨-, h⟩
      · exact .inl (by rw [(filter_eq_some_iff.1 h).1]; rfl)
      · exact .inr (by rw [h]; rfl)
  rcases hshape with hshape | hshape <;> simp [Statement.isDeclaration, hshape]

namespace Orderly

lemma le_of_isDeclaration (ht : s.Tidy depth) (hs : s.isDeclaration = true) :
    0 ≤ s.balance := by
  by_contra hfalls
  have hplain := ht.plain (by rw [Statement.balance] at hfalls; omega)
  rw [hs] at hplain
  cases hplain

lemma closeClasses (hdeeper : a.depths.Pairwise (· > ·)) (hmethod : a.method = none) :
    a.closeClasses.Orderly := by
  have hdepths : a.closeClasses.depths = a.depths.dropWhile (a.depth < ·) := by
    rw [depths, stack_closeClasses, depths, dropWhile_map]
    rfl
  have hsuffix : a.closeClasses.depths.Pairwise (· > ·) := by
    rw [hdepths]
    exact hdeeper.sublist (dropWhile_sublist _)
  refine ⟨?_, hsuffix, ?_⟩
  · rw [hdepths] at hsuffix ⊢
    have hdepth : a.closeClasses.depth = a.depth := rfl
    cases hleft : a.depths.dropWhile (a.depth < ·) with
    | nil => exact forall_mem_nil _
    | cons d outer =>
      have hd : ¬a.depth < d := by
        have hhead := head?_dropWhile_not (a.depth < ·) a.depths
        rw [hleft] at hhead
        simpa using hhead
      rw [hleft] at hsuffix
      refine forall_mem_cons.2 ⟨by omega, fun e he => ?_⟩
      have := rel_of_pairwise_cons hsuffix he
      omega
  · intro m hm
    have hnone : a.closeClasses.method = none := hmethod
    rw [hnone] at hm
    cases hm

lemma le_head (h : a.Orderly) {e : Int} (he : a.depths.head? = some e) : ∀ d ∈ a.depths, d ≤ e := by
  have hdeeper := h.deeper
  cases hdepths : a.depths with
  | nil => exact forall_mem_nil _
  | cons d outer =>
    rw [hdepths] at he hdeeper
    cases he
    exact forall_mem_cons.2 ⟨Int.le_refl _, fun e he =>
      Int.le_of_lt (rel_of_pairwise_cons hdeeper he)⟩

lemma method_eq_none (h : a.Orderly) (hstack : a.stack = []) : a.method = none := by
  cases hm : a.method with
  | none => rfl
  | some m =>
    have hhead := (h.inMethod m hm).1
    rw [depths, hstack] at hhead
    cases hhead

lemma of_none (hle : ∀ d ∈ a.depths, d ≤ a.depth) (hdeeper : a.depths.Pairwise (· > ·))
    (hmethod : a.method = none) : a.Orderly := by
  refine ⟨hle, hdeeper, ?_⟩
  rw [hmethod]
  rintro _ ⟨⟩

lemma updateTop (h : a.Orderly) (hf : ∀ c, (f c).bodyDepth = c.bodyDepth) : (a.updateTop f).Orderly := by
  have hdepths := a.depths_updateTop hf
  rw [updateTop_eq] at hdepths ⊢
  exact ⟨hdepths ▸ h.le_depth, hdepths ▸ h.deeper, hdepths ▸ h.inMethod⟩

/-- **One tidy statement** keeps the order. -/
lemma step (h : a.Orderly) (ht : s.Tidy depth) (hcode : s.isComment = false) :
    (a.step s).Orderly := by
  have hfalls : a.depth - 1 ≤ a.depth + s.balance := by
    have := ht.single
    rw [Statement.balance]
    omega
  have hrises : s.isDeclaration = true → ∀ d ∈ a.depths, d ≤ a.depth + s.balance := by
    intro hs d hd
    have := le_of_isDeclaration ht hs
    have := h.le_depth d hd
    omega
  have hcounted : (a.counted s).depth = a.depth + s.balance := rfl
  have hstep : Step a s (a.step s) := step_step hcode
  generalize a.step s = a' at hstep
  cases hstep with
  | inBody m hm hdepth =>
    obtain ⟨hhead, -⟩ := h.inMethod m hm
    refine ⟨fun d hd => ?_, h.deeper, ?_⟩
    · have := h.le_head hhead d hd
      exact show d ≤ a.depth + s.balance by omega
    · rintro _ ⟨⟩
      exact ⟨hhead, show m.openDepth < a.depth + s.balance by omega⟩
  | endsBody m info hm hdepth =>
    obtain ⟨hhead, hlt⟩ := h.inMethod m hm
    have hcleared : ({ a.counted s with method := none } : Analysis).Orderly := by
      refine of_none (fun d hd => ?_) h.deeper rfl
      have := h.le_head hhead d hd
      exact show d ≤ a.depth + s.balance by omega
    have hend : ({ (a.counted s).addMethod info with method := none } : Analysis) =
        ({ a.counted s with method := none } : Analysis).addMethod info := by
      rw [addMethod, addMethod, updateTop_eq, updateTop_eq]
    rw [hend]
    exact hcleared.updateTop fun _ => rfl
  | elsewhere hm hlevel => exact closeClasses h.deeper hm
  | heading package imports hm hstack _ =>
    have hdepths : a.depths = [] := by rw [depths, hstack]; rfl
    exact of_none (show ∀ d ∈ a.depths, d ≤ _ by rw [hdepths]; simp) h.deeper hm
  | annotations hm _ htext =>
    have hs : s.isDeclaration = true := by simp [Statement.isDeclaration, htext]
    exact of_none (hrises hs) h.deeper hm
  | declaresClass header hm _ _ hheader =>
    have hs : s.isDeclaration = true := by simp [Statement.isDeclaration, hheader]
    rw [declareClass]
    split_ifs with hopens
    · have hopens : a.depth < a.depth + s.balance := hopens
      refine of_none (forall_mem_cons.2 ⟨Int.le_refl _, hrises hs⟩) (pairwise_cons.2 ⟨?_, h.deeper⟩) hm
      intro d hd
      have := h.le_depth d hd
      exact show d < a.depth + s.balance by omega
    · exact of_none (hrises hs) h.deeper hm
  | declaresMethod c outer sig annotations hm hstack hlevel hsig =>
    have hs : s.isDeclaration = true := isDeclaration_of_signature? hsig
    rw [declareMethod]
    split_ifs with hopens
    · refine ⟨hrises hs, h.deeper, ?_⟩
      rintro _ ⟨⟩
      refine ⟨?_, hopens⟩
      exact show a.depths.head? = some a.depth by rw [depths, hstack, hlevel]; rfl
    · have hcleared : ({ a.counted s with pending := [] } : Analysis).Orderly :=
        of_none (hrises hs) h.deeper hm
      exact hcleared.updateTop fun _ => rfl
  | declaresField c outer f hm hstack hlevel _ _ _ hfield =>
    have hs : s.isDeclaration = true := by simp [Statement.isDeclaration, hfield]
    have hcleared : ({ a.counted s with pending := [] } : Analysis).Orderly :=
      of_none (hrises hs) h.deeper hm
    exact hcleared.updateTop fun _ => rfl
  | other hm _ =>
    have hdeeper : { a.counted s with pending := [] }.depths.Pairwise (· > ·) := h.deeper
    exact closeClasses hdeeper hm

lemma comment (h : a.Orderly) (hcomment : s.isComment = true) : (a.step s).Orderly := by
  rw [step_comment hcomment]
  refine ⟨h.le_depth, h.deeper, ?_⟩
  intro m hm
  obtain ⟨m', hm', rfl⟩ := map_eq_some_iff.1 hm
  exact h.inMethod m' hm'

end Orderly

/-! ## From open to finished -/

lemma finished_prefix_step (a : Analysis) (s : Statement) : a.finished <+: (a.step s).finished := by
  have hcleared : ∀ b : Analysis, b.finished <+: b.closeClasses.finished := by
    intro b
    exact prefix_append _ _
  by_cases hcomment : s.isComment = true
  · have hsame : (a.step s).finished = a.finished := by rw [step_comment hcomment]
    exact hsame ▸ prefix_rfl
  have hstep : Step a s (a.step s) := step_step (by simpa using hcomment)
  generalize a.step s = a' at hstep
  cases hstep with
  | inBody | heading | annotations => exact prefix_rfl
  | endsBody m info hm hdepth =>
    rw [addMethod, updateTop_eq]
    exact prefix_rfl
  | elsewhere => exact hcleared (a.counted s)
  | declaresClass header =>
    rw [declareClass]
    split_ifs
    · exact prefix_rfl
    · exact prefix_append _ _
  | declaresMethod =>
    rw [declareMethod]
    split_ifs
    · exact prefix_rfl
    · rw [addMethod, updateTop_eq]
      exact prefix_rfl
  | declaresField =>
    rw [addField, updateTop_eq]
    exact prefix_rfl
  | other => exact hcleared { a.counted s with pending := [] }

lemma finished_prefix_foldl (a : Analysis) (statements : List Statement) :
    a.finished <+: (statements.foldl step a).finished := by
  induction statements generalizing a with
  | nil => exact prefix_rfl
  | cons s rest ih => exact (a.finished_prefix_step s).trans (ih (a.step s))

lemma depths_step (hcode : s.isComment = false) :
    ∀ d ∈ (a.step s).depths, d ∈ a.depths ∨ d = a.depth + s.balance ∧ 0 < s.balance := by
  have hclosed : ∀ b : Analysis, ∀ d ∈ b.closeClasses.depths, d ∈ b.depths := by
    intro b d hd
    rw [depths, stack_closeClasses] at hd
    exact ((dropWhile_sublist _).map _).subset hd
  have hstep : Step a s (a.step s) := step_step hcode
  generalize a.step s = a' at hstep
  cases hstep with
  | inBody | heading | annotations => exact fun d hd => .inl hd
  | endsBody m info =>
    intro d hd
    exact .inl ((a.counted s).depths_addMethod info ▸ hd)
  | elsewhere => exact fun d hd => .inl (hclosed (a.counted s) d hd)
  | declaresClass header =>
    rw [declareClass]
    split_ifs with hopens
    · intro d hd
      rcases mem_cons.1 hd with rfl | hd
      · have hrises : a.depth < a.depth + s.balance := hopens
        exact .inr ⟨rfl, by omega⟩
      · exact .inl hd
    · exact fun d hd => .inl hd
  | declaresMethod =>
    rw [declareMethod]
    split_ifs
    · exact fun d hd => .inl hd
    · intro d hd
      rw [depths_addMethod] at hd
      exact .inl hd
  | declaresField =>
    intro d hd
    rw [depths_addField] at hd
    exact .inl hd
  | other => exact fun d hd => .inl (hclosed { a.counted s with pending := [] } d hd)

/-- **The depth falls below the classes that are open.**  They are finished, and nothing waits for a
declaration. -/
lemma stack_step_of_falls (h : a.Orderly) (ht : s.Tidy depth)
    (hcode : s.isComment = false) (hfalls : s.balance < 0) (hopen : ∀ d ∈ a.depths, a.depth ≤ d) :
    (a.step s).stack = [] ∧ (a.step s).pending = [] ∧ (a.step s).finished = a.finished ++ a.stack := by
  have hplain : s.isDeclaration = false := by
    refine ht.plain ?_
    rw [Statement.balance] at hfalls
    omega
  have hdeclared : ¬s.isDeclaration = true := by simp [hplain]
  have hmethod : ∀ m, a.method ≠ some m := by
    intro m hm
    obtain ⟨hhead, hlt⟩ := h.inMethod m hm
    have := hopen m.openDepth (mem_of_mem_head? hhead)
    omega
  have hstep : Step a s (a.step s) := step_step hcode
  generalize a.step s = a' at hstep
  cases hstep with
  | inBody m hm | endsBody m _ hm => exact absurd hm (hmethod m)
  | elsewhere _ hlevel =>
    obtain ⟨c, outer, hstack, hne⟩ := exists_of_atMemberLevel_eq_false hlevel
    exact absurd (Int.le_antisymm (hopen _ (mem_depths hstack)) (h.le_depth _ (mem_depths hstack))) hne
  | heading _ _ _ _ hheading =>
    refine absurd ?_ hdeclared
    rcases hheading with hheading | hheading <;> simp [Statement.isDeclaration, hheading]
  | annotations _ _ htext => exact absurd (by simp [Statement.isDeclaration, htext]) hdeclared
  | declaresClass header _ _ _ hheader =>
    exact absurd (by simp [Statement.isDeclaration, hheader]) hdeclared
  | declaresMethod c outer sig _ _ _ _ hsig => exact absurd (isDeclaration_of_signature? hsig) hdeclared
  | declaresField c outer f _ _ _ _ _ _ hfield =>
    exact absurd (by simp [Statement.isDeclaration, hfield]) hdeclared
  | other =>
    have hall : ∀ c ∈ a.stack, decide (a.depth + s.balance < c.bodyDepth) = true := by
      intro c hc
      have := hopen _ (mem_map.2 ⟨c, hc, rfl⟩)
      exact decide_eq_true (by omega)
    refine ⟨?_, rfl, ?_⟩
    · rw [stack_closeClasses]
      exact dropWhile_eq_nil_iff.2 hall
    · rw [finished_closeClasses]
      exact congrArg (a.finished ++ ·) (takeWhile_eq_self_iff.2 hall)

/-- A statement declares a field of the only class that is open. -/
structure DeclaresField (a : Analysis) (s : Statement) (c : OpenClass) (f : FieldHeader) : Prop where
  alone : a.stack = [c]
  level : a.depth = c.bodyDepth
  text : (splitAnnotations s.text).2.isEmpty = false
  noClass : classHeader? (stripGenerics (splitAnnotations s.text).2) = none
  noMethod : signature? (some c.name) (splitAnnotations s.text).2 = none
  field : field? (splitAnnotations s.text).2 = some f

/-- The annotations that wait when only the outermost class is open: those that waited before, with
those of the statement, or none. -/
def Waits (a : Analysis) (s : Statement) (c : OpenClass) (pending : List Text) : Prop :=
  pending = [] ∨
  (a.stack = [c] ∧ a.depth ≠ c.bodyDepth ∧ pending = a.pending) ∨
  (a.stack = [c] ∧ a.depth = c.bodyDepth ∧ (splitAnnotations s.text).2.isEmpty = true ∧
    pending = a.pending ++ (splitAnnotations s.text).1)

/-- Entering a method into the innermost class leaves the outermost as it is, but for its
methods. -/
lemma exists_concat_addMethod (b : Analysis)
    (hstack : b.stack = inner ++ [c]) (m : MethodInfo) : ∃ inner' c',
      (b.addMethod m).stack = inner' ++ [c'] ∧ (c'.name = c.name ∧ c'.bodyDepth = c.bodyDepth) ∧
      c'.fields = c.fields ∧ (inner' = [] → b.stack = [c]) := by
  rw [addMethod, updateTop_eq, hstack]
  cases inner with
  | nil => exact ⟨[], _, rfl, ⟨rfl, rfl⟩, rfl, fun _ => rfl⟩
  | cons i inner => exact ⟨_ :: inner, c, rfl, ⟨rfl, rfl⟩, rfl, by simp⟩

/-- Where classes are looked through for ends, the outermost stays if the source is not above its
body. -/
lemma dropWhile_concat_of_le {depth : Int} (hstays : c.bodyDepth ≤ depth)
    (inner : List OpenClass) :
    (inner ++ [c]).dropWhile (depth < ·.bodyDepth) = inner.dropWhile (depth < ·.bodyDepth) ++ [c] := by
  rw [dropWhile_append]
  split_ifs with hnil
  · rw [isEmpty_iff.1 hnil, dropWhile_cons_of_neg (by simpa using hstays)]
    rfl
  · rfl

lemma Orderly.depth_ne_of_method (h : a.Orderly) {m : OpenMethod} (hm : a.method = some m) (hstack : a.stack = c :: outer) : a.depth ≠ c.bodyDepth := by
  obtain ⟨hhead, hlt⟩ := h.inMethod m hm
  rw [depths, hstack] at hhead
  have hopen : c.bodyDepth = m.openDepth := some.inj hhead
  omega

/-- Deeper than the body of the innermost class, a statement that closes one brace more than it
opens ends no class. -/
lemma Orderly.stack_closeClasses_counted (h : a.Orderly) (ht : s.Tidy depth)
    (hlevel : a.atMemberLevel a.depth = false) : (a.counted s).closeClasses.stack = a.stack := by
  obtain ⟨top, outer, hstack, hne⟩ := exists_of_atMemberLevel_eq_false hlevel
  have hle := h.le_depth _ (mem_depths hstack)
  have hstays : ¬a.depth + s.balance < top.bodyDepth := by
    have := ht.single
    rw [Statement.balance]
    omega
  rw [stack_closeClasses]
  change a.stack.dropWhile (a.depth + s.balance < ·.bodyDepth) = a.stack
  rw [hstack, dropWhile_cons_of_neg (by simpa using hstays)]

/-- **The outermost class stays open** as long as the source is not above its body.  All that is
entered into it are its own members. -/
lemma bottom_step (h : a.Orderly) (ht : s.Tidy depth) (hcode : s.isComment = false)
    (hstack : a.stack = inner ++ [c])
    (hstays : c.bodyDepth ≤ a.depth + s.balance) :
    ∃ inner' c', (a.step s).stack = inner' ++ [c'] ∧ c'.name = c.name ∧
      c'.bodyDepth = c.bodyDepth ∧
      (c'.fields = c.fields ∨ ∃ f, DeclaresField a s c f ∧
        c'.fields = c.fields ++ [fieldInfo f (a.pending ++ (splitAnnotations s.text).1)]) ∧
      (inner' = [] → Waits a s c (a.step s).pending) := by
  have halone : inner = [] → a.stack = [c] := by
    rintro rfl
    exact hstack
  have hstep : Step a s (a.step s) := step_step hcode
  generalize a.step s = a' at hstep
  cases hstep with
  | inBody m hm hdepth =>
    refine ⟨inner, c, hstack, rfl, rfl, .inl rfl, fun hinner => .inr (.inl ?_)⟩
    exact ⟨halone hinner, h.depth_ne_of_method hm (halone hinner), rfl⟩
  | endsBody m info hm hdepth =>
    obtain ⟨inner', c', hstack', ⟨hname, hbody⟩, hfields, hinner⟩ :=
      exists_concat_addMethod (a.counted s) hstack info
    refine ⟨inner', c', hstack', hname, hbody, .inl hfields, fun hnil => .inr (.inl ?_)⟩
    rw [addMethod, updateTop_eq]
    exact ⟨hinner hnil, h.depth_ne_of_method hm (hinner hnil), rfl⟩
  | elsewhere hm hlevel =>
    refine ⟨inner, c, (h.stack_closeClasses_counted ht hlevel).trans hstack, rfl, rfl, .inl rfl,
      fun hinner => .inr (.inl ⟨halone hinner, fun hdepth => ?_, rfl⟩)⟩
    rw [(atMemberLevel_iff (halone hinner) a.depth).2 hdepth] at hlevel
    cases hlevel
  | heading package imports hm hempty _ => simp [hempty] at hstack
  | annotations hm hlevel htext =>
    refine ⟨inner, c, hstack, rfl, rfl, .inl rfl, fun hinner => .inr (.inr ⟨halone hinner, ?_, htext, rfl⟩)⟩
    exact (atMemberLevel_iff (halone hinner) a.depth).1 hlevel.level
  | declaresClass header hm _ _ hheader =>
    rw [declareClass]
    split_ifs with hopens
    · exact ⟨_ :: inner, c, congrArg (_ :: ·) hstack, rfl, rfl, .inl rfl, by simp⟩
    · exact ⟨inner, c, hstack, rfl, rfl, .inl rfl, fun _ => .inl rfl⟩
  | declaresMethod c' outer sig annotations hm hc hlevel hsig =>
    rw [declareMethod]
    split_ifs with hopens
    · exact ⟨inner, c, hstack, rfl, rfl, .inl rfl, fun _ => .inl rfl⟩
    · obtain ⟨inner', c', hstack', ⟨hname, hbody⟩, hfields, -⟩ :=
        exists_concat_addMethod { a.counted s with pending := [] } hstack _
      refine ⟨inner', c', hstack', hname, hbody, .inl hfields, fun _ => .inl ?_⟩
      rw [addMethod, updateTop_eq]
  | declaresField top outer f hm hc hlevel htext hheader hsig hfield =>
    rw [addField, updateTop_eq]
    cases inner with
    | nil =>
      obtain rfl : top = c := by
        rw [hc] at hstack
        exact (cons.inj hstack).1
      refine ⟨[], _, congrArg (modifyHead _) hstack, rfl, rfl, .inr ⟨f, ?_, rfl⟩,
        fun _ => .inl rfl⟩
      exact ⟨hstack, hlevel, htext, hheader, hsig, hfield⟩
    | cons i inner =>
      exact ⟨_ :: inner, c, congrArg (modifyHead _) hstack, rfl, rfl, .inl rfl, by simp⟩
  | other hm _ =>
    refine ⟨inner.dropWhile (a.depth + s.balance < ·.bodyDepth), c, ?_, rfl, rfl, .inl rfl,
      fun _ => .inl rfl⟩
    rw [stack_closeClasses, ← dropWhile_concat_of_le hstays, ← hstack]
    rfl

end Analysis

end Restage
