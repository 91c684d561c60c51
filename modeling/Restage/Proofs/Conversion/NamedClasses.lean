import Restage.Proofs.Conversion.StatementNames
import Restage.Proofs.Project.Regular

/-!
# Classes that the code names

Whatever a statement writes on the sheet, the classes that it names are mentions
(`surveyed_stepCalls`), and so it is for a file (`Task.surveyed_calls`), whose comments are copied
and not looked at.  At the start of a line a class is named if it can be read there.  The other
places for a class are the types in the header of a method, and such a header has the types of its
mentions and no others (`HeaderOf`); the further lines that open a scope have no types but those of
the page, of a message and of an element.

What can be read off a line depends on the names in it.  Those that a walk carries along are words
of the source (`Walk.Neat`).
-/

namespace Restage.Conversion

open Text Java TypeScript List Option

variable {base : Option Text} {t header name : Text}

/-! ## Headers -/

/-- A line is the header of a method whose types are among the mentions. -/
def HeaderOf (ms : List Mention) (line : Text) : Prop :=
  ∃ (opening : Text) (given : List Text) (typed : List (Text × Text)) (ending : Text),
    line = opening ++ "(" ++ join ", " (given ++ typed.map fun p => (p.1 ++ ": " ++ p.2 : Text)) ++ ")" ++
      ending ∧
    given ⊆ ["\x7b page \x7d".toList, "page: Page".toList] ∧
    (∀ p ∈ typed, ∃ m ∈ ms, m.usage = .parameter p.1 ∧ m.name = p.2) ∧
    (ending = " => \x7b".toList ∨ ∃ result, ending = ": Promise<" ++ result ++ "> \x7b" ∧
      ∃ m ∈ ms, m.usage = .result ∧ m.name = result)

lemma HeaderOf.mono {ms more : List Mention} {line : Text} (hsub : ms ⊆ more) (h : HeaderOf ms line) :
    HeaderOf more line := by
  have hmention : ∀ {P : Mention → Prop}, (∃ m ∈ ms, P m) → ∃ m ∈ more, P m := by
    rintro P ⟨m, hm, hP⟩
    exact ⟨m, hsub hm, hP⟩
  obtain ⟨opening, given, typed, ending, hline, hgiven, htyped, hending⟩ := h
  refine ⟨opening, given, typed, ending, hline, hgiven, fun p hp => hmention (htyped p hp), ?_⟩
  exact hending.imp_right (Exists.imp fun _ => And.imp_right hmention)

def AccessorHeader (line : Text) : Prop := ∃ name, line = "async " ++ name ++ "(): Promise<Locator> \x7b"

/-- The starts of the lines that open a block. -/
def controlStarts : List Text :=
  ["if (", "else if (", "while (", "for (", "catch (", "else \x7b", "try \x7b", "finally \x7b"]

/-- The starts of the lines that open a scope and have no types of their own. -/
def untypedStarts : List Text := "export class " :: "constructor(" :: controlStarts

/-- All that a call on the sheet names is mentioned. -/
structure Surveyed (ms : List Mention) (c : Call) : Prop where
  named : ∀ line ∈ c.texts, Accounted ms line
  typed : ∀ line closer, c = .openScope line closer →
    HeaderOf ms line ∨ AccessorHeader line ∨ ∃ start ∈ untypedStarts, start <+: line
  body : ∀ line, c ≠ .addImport line

namespace Surveyed

variable {ms more : List Mention} {c : Call}

lemma mono (h : Surveyed ms c) (hsub : ms ⊆ more) : Surveyed more c :=
  ⟨fun line hline => (h.named line hline).mono hsub,
    fun line closer hopen => (h.typed line closer hopen).imp_left (.mono hsub), h.body⟩

lemma emit {lines : List Text} (h : ∀ line ∈ lines, Accounted ms line) : Surveyed ms (.emit lines) :=
  ⟨h, by rintro _ _ ⟨⟩, by rintro _ ⟨⟩⟩

lemma emit_one {line : Text} (h : Accounted ms line) : Surveyed ms (.emit [line]) :=
  emit (forall_mem_singleton.2 h)

lemma blank : Surveyed ms .blank := ⟨forall_mem_nil _, by rintro _ _ ⟨⟩, by rintro _ ⟨⟩⟩

lemma closeScope : Surveyed ms .closeScope := ⟨forall_mem_nil _, by rintro _ _ ⟨⟩, by rintro _ ⟨⟩⟩

lemma comment (text : Text) : Surveyed ms (.comment text) := by
  refine ⟨forall_mem_singleton.2 ?_, by rintro _ _ ⟨⟩, by rintro _ ⟨⟩⟩
  split_ifs <;> exact accounted_of_start rfl rfl rfl fun _ => rfl

lemma chain {line : Text} (h : Accounted ms line) : Surveyed ms (.chain line) :=
  ⟨forall_mem_singleton.2 h, by rintro _ _ ⟨⟩, by rintro _ ⟨⟩⟩

lemma insert {line : Text} (mark : Nat) (h : Accounted ms line) : Surveyed ms (.insert mark [line]) :=
  ⟨forall_mem_singleton.2 h, by rintro _ _ ⟨⟩, by rintro _ ⟨⟩⟩

lemma openScope {line closer : Text} (h : Accounted ms line)
    (htyped : HeaderOf ms line ∨ AccessorHeader line ∨ ∃ start ∈ untypedStarts, start <+: line) :
    Surveyed ms (.openScope line closer) := by
  refine ⟨forall_mem_singleton.2 h, ?_, by rintro _ ⟨⟩⟩
  rintro _ _ ⟨⟩
  exact htyped

end Surveyed

/-! ## Classes -/

variable {info : ClassInfo} {style : Style} {f : FieldHeader} {sig : Signature} {ctx : Context} {w : Walk}
  {frame : Option Frame} {around : Surroundings}

section Calls

variable {ms : List Mention} {l : Lookup} (s : Statement)

lemma accounted_classHeader (hname : isWordText name = true)
    (hbase : ∀ b ∈ base, isWordText b = true ∧ (b = "Error".toList ∨ ∃ m ∈ ms, m.usage = .base ∧ m.name = b)) :
    Accounted ms ("export class " ++ name ++ (base.map fun (b : Text) => " extends " ++ b).getD [] ++
      " \x7b") := by
  have hword : ∀ {w : Text} (r : Text), isWordText w = true →
      word? (w ++ ' ' :: r) = some (w, ' ' :: r) := by
    intro w r hw
    refine word?_append hw fun c hc => ?_
    cases hc
    decide
  have hread : ∀ r : Text, Usage.base.read? ("export class " ++ (name ++ ' ' :: r)) =
      ((literal? " extends " (' ' :: r)).bind word?).bind fun found =>
        (literal? " \x7b" found.2).bind fun _ => some found.1 := by
    intro r
    rw [Usage.read?, literal?_append, bind_some, hword r hname]
    rfl
  intro usage found hfound
  rw [append_assoc] at hfound
  cases base with
  | none =>
    cases usage with
    | base =>
      cases (hread "\x7b").symm.trans hfound
    | constructed | thrown | receiver | parameter | result | property | keywords | unwritten =>
      cases hfound
  | some b =>
    obtain ⟨hb, hmention⟩ := hbase b rfl
    cases usage with
    | base =>
      have hextends : literal? " extends " (' ' :: ("extends " ++ (b ++ " \x7b"))) =
          some (b ++ ' ' :: "\x7b".toList) := rfl
      have hsame := (hread ("extends " ++ (b ++ " \x7b"))).symm.trans hfound
      rw [hextends, bind_some, hword _ hb] at hsame
      cases hsame
      exact hmention.imp_left fun herror => by simp [herror, Usage.builtIn]
    | constructed | thrown | receiver | parameter | result | property | keywords | unwritten =>
      cases hfound

lemma surveyed_classCalls (hname : isWordText name = true)
    (hbase : ∀ b ∈ base, isWordText b = true ∧ (b = "Error".toList ∨ ∃ m ∈ ms, m.usage = .base ∧ m.name = b))
    {fields constructor : List Text} (hfields : ∀ line ∈ fields, Accounted ms line)
    (hconstructor : ∀ line ∈ constructor, Accounted ms line) (parameter : Text) :
    ∀ c ∈ classCalls name base fields parameter constructor, Surveyed ms c := by
  have hopening : Surveyed ms (.openScope ("constructor(" ++ parameter ++ ") \x7b") "\x7d") := by
    refine .openScope ?_ (.inr (.inr ⟨"constructor(", by decide, ?_⟩))
    · rw [append_assoc]
      exact accounted_of_start rfl rfl rfl fun _ => rfl
    · rw [append_assoc]
      exact prefix_append _ _
  have hheader : Surveyed ms (.openScope ("export class " ++ name ++
      (base.map fun (b : Text) => " extends " ++ b).getD [] ++ " \x7b") "\x7d") := by
    refine .openScope (accounted_classHeader hname hbase) (.inr (.inr ⟨"export class ", by decide, ?_⟩))
    exact prefix_append _ _
  rw [classCalls]
  simp only [cons_append, forall_mem_cons, forall_mem_append]
  refine ⟨hheader, ?_, hopening, .emit hconstructor, .closeScope, forall_mem_nil _⟩
  split_ifs
  · exact forall_mem_nil _
  · simp only [forall_mem_cons]
    exact ⟨.emit hfields, .blank, forall_mem_nil _⟩

/-- What classes are looked up among have words for names. -/
structure Lookup.Named (l : Lookup) : Prop where
  project : ∀ p ∈ l.project, p.Regular
  classes : ∀ c ∈ l.classes, c.Named

lemma Lookup.named_own? (h : ∀ c ∈ l.classes, c.Named) (hname : isWordText name = true) :
    ((l.own? name).getD { name }).Named := by
  cases hown : l.own? name with
  | none => exact ⟨hname, forall_mem_nil _⟩
  | some c => exact h c (mem_of_find?_eq_some hown)

lemma Lookup.Named.class? (h : l.Named) {c : ClassInfo} (hc : l.class? name = some c) :
    c.name = afterLast '.' name ∧ isWordText c.name = true := by
  rw [Lookup.class?] at hc
  split_ifs at hc with hempty
  rcases or_eq_some_iff.1 hc with hc | ⟨-, hc⟩
  · obtain ⟨p, hp, hc⟩ := bind_eq_some_iff.1 hc
    rw [Project.get?, if_neg hempty] at hc
    obtain ⟨hname, hword⟩ := (h.project p hp).classes _ c hc
    exact ⟨hname, hname ▸ hword⟩
  · exact ⟨name_of_own? hc, (h.classes c (mem_of_find?_eq_some hc)).name⟩

lemma Lookup.Named.extended? (h : l.Named) {c parent : ClassInfo} (hparent : l.extended? c = some parent) :
    isWordText parent.name = true := by
  have hfound : ∀ {p : ClassInfo → Bool}, (l.parent? c).filter p = some parent →
      isWordText parent.name = true := by
    intro p hp
    obtain ⟨name, -, hname⟩ := bind_eq_some_iff.1 (filter_eq_some_iff.1 hp).1
    exact (h.class? hname).2
  rw [Lookup.extended?] at hparent
  split at hparent
  · exact hfound hparent
  · cases hparent
  · exact hfound hparent

lemma surveyed_styleCalls (h : l.Named) (hinfo : info.Named) (bound : Bool)
    (hstyle : Style.ofRoles (l.roles info) = style) :
    ∀ c ∈ styleCalls l info bound style, Surveyed (styleMentions l info bound style) c := by
  have hbase : ∀ parent ∈ l.extended? info, style ≠ .steps → isWordText parent.name = true ∧
      (parent.name = "Error".toList ∨
        ∃ m ∈ styleMentions l info bound style, m.usage = .base ∧ m.name = parent.name) := by
    intro parent hparent hsteps
    have hmem : (⟨.base, parent.name, some info.name⟩ : Mention) ∈ styleMentions l info bound style := by
      cases style with
      | steps => exact absurd rfl hsteps
      | exception | page => exact mem_map.2 ⟨parent, mem_toList.2 hparent, rfl⟩
    exact ⟨h.extended? hparent, .inr ⟨_, hmem, rfl, rfl⟩⟩
  rw [Lookup.extended?, hstyle] at hbase
  cases style with
  | exception =>
    refine surveyed_classCalls hinfo.name ?_ (forall_mem_nil _) ?_ _
    · rintro _ ⟨⟩
      cases hparent : (l.parent? info).filter fun p => (l.roles p).isException with
      | none => exact ⟨by decide, .inl rfl⟩
      | some p => exact hbase p hparent (by decide)
    · simp only [forall_mem_cons]
      refine ⟨?_, ?_, forall_mem_nil _⟩
      · exact accounted_of_start rfl rfl rfl fun _ => rfl
      · exact accounted_of_start rfl rfl rfl fun _ => rfl
  | steps =>
    rw [styleCalls]
    split_ifs
    · exact forall_mem_nil _
    · simp only [forall_mem_cons]
      exact ⟨.emit_one (accounted_of_start rfl rfl rfl fun _ => rfl), .blank, forall_mem_nil _⟩
  | page =>
    rw [styleCalls, pageCalls]
    cases hparent : (l.parent? info).filter fun p => l.isPageType p.name with
    | none =>
      refine surveyed_classCalls hinfo.name (by rintro _ ⟨⟩) ?_ ?_ _ <;>
        exact forall_mem_singleton.2 (accounted_of_start rfl rfl rfl fun _ => rfl)
    | some p =>
      refine surveyed_classCalls hinfo.name ?_ (forall_mem_nil _) ?_ _
      · rintro _ ⟨⟩
        exact hbase p hparent (by decide)
      · exact forall_mem_singleton.2 (accounted_of_start rfl rfl rfl fun _ => rfl)

lemma surveyed_topLevelCalls (h : l.Named) (s : Statement) (bound : Bool) :
    ∀ c ∈ topLevelCalls l s bound, Surveyed (topLevelMentions l s bound) c := by
  rw [topLevelCalls, topLevelMentions]
  split_ifs
  · exact forall_mem_nil _
  cases hheader : classHeader? (stripGenerics (splitAnnotations s.text).2) with
  | none => exact forall_mem_nil _
  | some header =>
    dsimp only
    rw [openClassCalls, classMentions]
    split_ifs
    · exact forall_mem_nil _
    refine forall_mem_append.2 ⟨?_, ?_⟩
    · exact surveyed_styleCalls h (Lookup.named_own? h.classes (classHeader?_parts hheader).1) bound rfl
    · split_ifs
      · exact forall_mem_singleton.2 .closeScope
      · exact forall_mem_nil _

/-! ## Fields -/

lemma accounted_propertyLine (style : Style) {info : FieldInfo} {value : Text}
    (hname : isWordText info.name = true) (hvalue : isLiteral value = true) :
    Accounted ms (propertyLine style f info value) := by
  have hmodifier : ∀ k x r : Text, k ∈ (["async", "static", "readonly"] : List Text) →
      isWordText x = true → Accounted ms (k ++ (' ' :: (x ++ r))) := by
    intro k x r hk hx
    have hnone : Accounted ms (k ++ " " ++ x ++ r) := accounted_of_none (read?_eq_none_of_modifier hk hx r)
    rwa [append_assoc, append_assoc] at hnone
  rw [propertyLine]
  split_ifs
  · intro usage found hread
    rw [append_assoc] at hread
    obtain ⟨-, _, hnew⟩ := read?_assignment (.append (by decide) (.of_word hname)) hread
    rw [constructed?_of_literal (isLiteral_plainLiteral_cases hvalue)] at hnew
    cases hnew
  all_goals simp only [append_assoc]
  · exact hmodifier "static" "readonly" (' ' :: _) (by simp) (by decide)
  · exact hmodifier "static" info.name _ (by simp) hname
  · exact hmodifier "readonly" info.name _ (by simp) hname
  · exact accounted_of_none (read?_eq_none_of_word hname (by decide) (by decide) _)

lemma surveyed_fieldCalls (l : Lookup) (style : Style) (hname : isWordText f.name = true)
    (annotations : List Text) : ∀ c ∈ fieldCalls l style f annotations, Surveyed ms c := by
  rw [fieldCalls]
  dsimp only
  split_ifs with helement hsteps hliteral
  · exact forall_mem_nil _
  · generalize (fieldLocator? (Analysis.fieldInfo f annotations)).getD _ = locator
    have hheader : Surveyed ms (.openScope ("async " ++ f.name ++ "(): Promise<Locator> \x7b") "\x7d") := by
      refine .openScope (accounted_of_none ?_) (.inr (.inl ⟨f.name, rfl⟩))
      exact read?_eq_none_of_modifier (k := "async") (by simp) hname _
    have hreturn : Accounted ms ("return this.page." ++ locator.call [] ++ ";") := by
      exact accounted_of_start rfl rfl rfl fun _ => rfl
    rw [accessorCalls]
    simp only [cons_append, forall_mem_cons, forall_mem_append]
    refine ⟨.blank, ?_, hheader, .emit_one hreturn, .closeScope, forall_mem_nil _⟩
    rintro _ hc
    obtain ⟨description, -, rfl⟩ := mem_map.1 hc
    exact .comment description
  · exact forall_mem_singleton.2 (.emit_one (accounted_propertyLine style hname hliteral))
  · exact forall_mem_nil _

/-! ## Methods -/

lemma headerOf_methodHeader (l : Lookup) (style : Style) (sig : Signature) (step : Option Step)
    (ctx : Context) (within : Option Text) :
    HeaderOf (headerMentions style sig step within) (methodHeader l style sig step ctx).1.line := by
  let pairs : List (Text × Text) := (parameters sig.params).map fun p => (p.name, typeName p.type)
  have htyped : (typedParameters l (parameters sig.params) ctx).1 =
      pairs.map fun p => (p.1 ++ ": " ++ p.2 : Text) := by
    rw [typedParameters_eq, List.map_map]
    rfl
  have hmentioned : ∀ p ∈ pairs, ∃ m ∈ headerMentions style sig step within,
      m.usage = .parameter p.1 ∧ m.name = p.2 := by
    intro p hp
    obtain ⟨q, hq, rfl⟩ := mem_map.1 hp
    exact ⟨_, mem_append_left _ (mem_map_of_mem hq), rfl, rfl⟩
  rcases methodHeader_cases l style sig step ctx with ⟨-, found, heq⟩ |
    ⟨hstep, opening, given, header, -, hgiven, hline, heq⟩
  · rw [heq, htyped]
    refine ⟨stepKeyword found.name ++ "(" ++ literal [] (stepPhrase found.phrase) ++ ", async ",
      ["\x7b page \x7d"], pairs, " => \x7b", ?_, by simp, hmentioned, .inl rfl⟩
    rw [stepHeader]
    simp only [append_assoc]
    rfl
  · rw [heq]
    rw [hline, htyped]
    refine ⟨opening ++ sig.name, given, pairs, ": Promise<" ++ typeName (sig.result.getD []) ++ "> \x7b",
      ?_, fun x hx => mem_cons_of_mem _ (hgiven hx), hmentioned, .inr ⟨_, rfl, ?_⟩⟩
    · simp only [append_assoc]
      rfl
    · refine ⟨⟨.result, typeName (sig.result.getD []), within⟩, mem_append_right _ ?_, rfl, rfl⟩
      rw [if_neg hstep]
      exact mem_singleton_self _

lemma isWordText_stepKeyword (name : Text) : isWordText (stepKeyword name) = true := by
  rw [stepKeyword]
  split_ifs with hkeyword
  · have hall : (["Given", "When", "Then"] : List Text).all isWordText = true := by decide
    exact all_eq_true.1 hall name (contains_iff_mem.1 hkeyword)
  · decide

lemma accounted_methodHeader (l : Lookup) (style : Style) (hname : isWordText sig.name = true)
    (step : Option Step) (ctx : Context) : Accounted ms (methodHeader l style sig step ctx).1.line := by
  refine accounted_of_none fun usage => ?_
  rcases methodHeader_cases l style sig step ctx with ⟨-, found, heq⟩ |
    ⟨-, opening, given, header, hopening, -, hline, heq⟩
  · rw [heq, stepHeader]
    simp only [append_assoc]
    exact read?_eq_none_of_word (isWordText_stepKeyword found.name) (by decide) (by decide) _ usage
  · rw [heq]
    rw [hline]
    simp only [mem_cons, not_mem_nil, or_false] at hopening
    rcases hopening with rfl | rfl | rfl
    · simp only [append_assoc]
      cases usage <;> rfl
    · simp only [append_assoc]
      cases usage <;> rfl
    · have hmodifier := read?_eq_none_of_modifier (k := "async") (by simp) hname
        ("(" ++ join ", " (given ++ (typedParameters l (parameters sig.params) ctx).1) ++ "): Promise<" ++
          typeName (sig.result.getD []) ++ "> \x7b") usage
      simp only [append_assoc] at hmodifier ⊢
      exact hmodifier

lemma isWordText_of_namedPages (h : l.Named) (hinfo : info.Named) {method : Text} {f : FieldInfo}
    (hf : f ∈ namedPages l info method) : isWordText f.name = true ∧ isWordText f.elementType = true := by
  obtain ⟨hmem, hpage⟩ := mem_filter.1 hf
  rw [Bool.and_eq_true, Lookup.isPageType, Option.any_eq_true] at hpage
  obtain ⟨⟨c, hc, -⟩, -⟩ := hpage
  obtain ⟨hsame, hword⟩ := h.class? hc
  have hlast : afterLast '.' f.elementType = f.elementType := afterLast_of_not_mem (not_mem_afterLast '.' _)
  exact ⟨hinfo.fields f hmem, by rw [← hlast, ← hsame]; exact hword⟩

lemma surveyed_startCalls (h : l.Named) (hinfo : info.Named) (style : Style)
    (hname : isWordText sig.name = true) (annotations : List Text) (ctx : Context) (within : Option Text) :
    ∀ c ∈ startCalls l info style sig annotations ctx,
      Surveyed (startMentions l info style sig annotations within) c := by
  rw [startCalls, startMentions]
  refine forall_mem_cons.2 ⟨?_, ?_⟩
  · refine .openScope (accounted_methodHeader l style hname _ ctx) (.inl ?_)
    exact (headerOf_methodHeader l style sig _ ctx within).mono (subset_append_left _ _)
  · split_ifs
    · rintro _ hc
      obtain ⟨f, hf, rfl⟩ := mem_map.1 hc
      obtain ⟨hfield, htype⟩ := isWordText_of_namedPages h hinfo hf
      have hplain : Plain ("const " ++ f.name) := .append (by decide) (.of_word hfield)
      have hmem : (⟨.constructed, f.elementType, within⟩ : Mention) ∈
          headerMentions style sig (stepAnnotation? annotations) within ++
            (namedPages l info sig.name).map fun f => ⟨.constructed, f.elementType, within⟩ :=
        mem_append_right _ (mem_map.2 ⟨f, hf, rfl⟩)
      have hline := accounted_assignment (r := "page);") hplain htype ⟨rfl, rfl⟩ hmem
      rw [append_assoc] at hline
      exact .emit_one hline
    · exact forall_mem_nil _

/-! ## Bodies of methods -/

lemma controlHeader?_start {after : Context} (h : controlHeader? ctx t = some (header, after)) : ∃ start ∈ controlStarts, start <+: header := by
  rw [controlHeader?] at h
  split at h
  · rename_i hcondition
    cases h
    obtain ⟨found, hkeyword, hcondition⟩ := bind_eq_some_iff.1 hcondition
    obtain ⟨condition, -, hcondition⟩ := bind_eq_some_iff.1 hcondition
    cases hcondition
    have hmem : found.1 ∈ (["if", "else if", "while"] : List Text) := by
      simp only [conditionKeyword?, or_eq_some_iff, map_eq_some_iff] at hkeyword
      rcases hkeyword with ⟨_, -, rfl⟩ | ⟨-, ⟨_, -, rfl⟩ | ⟨-, _, -, rfl⟩⟩ <;> simp
    rw [append_assoc (_ ++ _)]
    refine ⟨found.1 ++ " (", ?_, prefix_append _ _⟩
    simp only [mem_cons, not_mem_nil, or_false] at hmem
    rcases hmem with hmem | hmem | hmem <;> rw [hmem] <;> decide
  · split at h
    · cases h
      exact ⟨"for (", by decide, "const ".toList ++ _, rfl⟩
    · obtain ⟨found, hfound, h⟩ := map_eq_some_iff.1 h
      cases h
      simp only [or_eq_some_iff, map_eq_some_iff] at hfound
      rcases hfound with ⟨inside, -, rfl⟩ | ⟨-, ⟨name, -, rfl⟩ | ⟨-, keyword, hkeyword, rfl⟩⟩
      · rw [append_assoc]
        exact ⟨"for (", by decide, "let ".toList ++ _, rfl⟩
      · rw [append_assoc]
        exact ⟨"catch (", by decide, _, rfl⟩
      · obtain ⟨read, hread, hkeyword⟩ := bind_eq_some_iff.1 hkeyword
        obtain ⟨w, hw, hread⟩ := exists_of_findSome?_eq_some hread
        obtain ⟨_, -, rfl⟩ := map_eq_some_iff.1 hread
        obtain ⟨r, -, hkeyword⟩ := bind_eq_some_iff.1 hkeyword
        split_ifs at hkeyword
        cases hkeyword
        simp only [mem_cons, not_mem_nil, or_false] at hw
        rcases hw with rfl | rfl | rfl <;> decide

lemma accounted_controlHeader (h : ∃ start ∈ controlStarts, start <+: header) :
    Accounted ms header := by
  obtain ⟨start, hstart, rest, rfl⟩ := h
  simp only [controlStarts, mem_cons, not_mem_nil, or_false] at hstart
  rcases hstart with rfl | rfl | rfl | rfl | rfl | rfl | rfl | rfl <;>
    exact accounted_of_start rfl rfl rfl fun _ => rfl

lemma surveyed_todoCalls : ∀ c ∈ todoCalls s, Surveyed ms c :=
  forall_mem_singleton.2 (.emit_one (accounted_of_start rfl rfl rfl fun _ => rfl))

lemma surveyed_convertCalls (hneat : ctx.Neat) (line : Nat) (text : Text) :
    ∀ c ∈ convertCalls line text ctx, Surveyed (statementMentions text ctx) c := by
  rw [convertCalls]
  split
  · rename_i lines after hconverted
    exact forall_mem_singleton.2 (.emit (statement_accounts hneat hconverted).lines)
  · exact forall_mem_nil _

lemma surveyed_closingCalls (inBlock : Bool) (rest : Text) (ctx : Context) :
    ∀ c ∈ closingCalls s inBlock rest ctx, Surveyed ms c := by
  rw [closingCalls]
  split_ifs
  · exact forall_mem_nil _
  · split
    · exact forall_mem_singleton.2 (.chain (accounted_of_start rfl rfl rfl fun _ => rfl))
    · exact surveyed_todoCalls s
  · exact surveyed_todoCalls s

lemma surveyed_openingCalls (ctx : Context) : ∀ c ∈ openingCalls s ctx, Surveyed ms c := by
  rw [openingCalls]
  split
  · rename_i header after hheader
    have hstart := controlHeader?_start hheader
    refine forall_mem_singleton.2 (.openScope (accounted_controlHeader hstart) (.inr (.inr ?_)))
    obtain ⟨start, hmem, hle⟩ := hstart
    exact ⟨start, mem_cons_of_mem _ (mem_cons_of_mem _ hmem), hle⟩
  · exact surveyed_todoCalls s

lemma surveyed_bodyCalls (hneat : ctx.Neat) (s : Statement) (inBlock : Bool) :
    ∀ c ∈ bodyCalls s inBlock ctx, Surveyed (bodyMentions s ctx) c := by
  rw [bodyMentions_eq]
  cases Walk.bodyPlace s with
  | closing r _ _ _ hcalls =>
    rw [hcalls]
    exact fun c hc => surveyed_closingCalls s inBlock (trim r) ctx c hc
  | opening _ _ _ _ hcalls =>
    rw [hcalls]
    exact fun c hc => surveyed_openingCalls s ctx c hc
  | other _ _ _ _ hcalls =>
    rw [hcalls]
    cases Walk.bodyPart? s with
    | none => exact forall_mem_nil _
    | some part => exact surveyed_convertCalls hneat s.line part

end Calls

/-! ## Neat contexts -/

lemma isBlank_of_mem_parameters {p : Parameter} (hp : p ∈ parameters t) :
    ∀ c ∈ p.name, isBlank c = false := by
  obtain ⟨text, -, hread⟩ := mem_filterMap.1 hp
  rw [parameter?] at hread
  split at hread
  · rename_i name type types htokens
    cases hread
    have hmem : name ∈ (words (spreadDots (splitAnnotations text).2)).filter (· ≠ "final".toList) := by
      rw [← mem_reverse, htokens]
      exact mem_cons_self
    exact fun c hc => (mem_of_mem_words (mem_filter.1 hmem).1 c hc).1
  · cases hread

lemma methodHeader_refs (l : Lookup) (style : Style) (sig : Signature) (step : Option Step)
    (ctx : Context) :
    ((methodHeader l style sig step ctx).1.pageRef = "page".toList ∨
      (methodHeader l style sig step ctx).1.pageRef = "this.page".toList) ∧
    ∀ name ∈ (methodHeader l style sig step ctx).1.selfRef, name = "this".toList := by
  unfold methodHeader
  dsimp only
  split
  · exact ⟨.inl rfl, by rintro _ ⟨⟩⟩
  · split_ifs
    · exact ⟨.inl rfl, by rintro _ ⟨⟩⟩
    · exact ⟨.inl rfl, by rintro _ ⟨⟩⟩
    · exact ⟨.inr rfl, by rintro _ ⟨⟩; rfl⟩

namespace Context.Neat

variable {ctx : Context}

lemma classContext (h : ctx.Neat) (l : Lookup) (hinfo : info.Named) (style : Style) :
    (classContext l info style ctx).Neat := by
  refine ⟨h.page, h.self, fun name hname => ?_, h.scope⟩
  cases style with
  | steps => cases hname
  | exception | page =>
    cases hname
    exact hinfo.name

lemma startMethod (h : w.context.Neat) (l : Lookup) (hinfo : info.Named) (style : Style) (sig : Signature)
    (annotations : List Text) : (w.startMethod l info style sig annotations).context.Neat := by
  have hpages : ∀ (pages : List FieldInfo) (w : Walk), w.context.Neat → (∀ f ∈ pages, f ∈ info.fields) →
      (pages.foldl Walk.constructPage w).context.Neat := by
    intro pages
    induction pages with
    | nil => exact fun w hw _ => hw
    | cons f rest ih =>
      intro w hw hmem
      obtain ⟨hf, hrest⟩ := forall_mem_cons.1 hmem
      exact ih _ ((hw.importClass f.elementType).declare (hinfo.fields f hf) _) hrest
  have hstanding := methodHeader_standing l style sig (stepAnnotation? annotations) w.context
  obtain ⟨hpage, hself⟩ := methodHeader_refs l style sig (stepAnnotation? annotations) w.context
  rw [Walk.startMethod]
  generalize methodHeader l style sig (stepAnnotation? annotations) w.context = found at *
  obtain ⟨header, context⟩ := found
  have hentered : (context.enterMethod ((Java.parameters sig.params).map (·.name)) header.pageRef
      header.selfRef).Neat := by
    refine ⟨hpage, fun name hname => hself name (filter_eq_some_iff.1 hname).1, ?_, ?_⟩
    · intro name hname
      exact h.within name (className_of_standing hstanding ▸ hname)
    · intro name hname
      rcases mem_append.1 hname with hname | hname
      · obtain ⟨p, hp, rfl⟩ := mem_map.1 hname
        exact isBlank_of_mem_parameters hp
      · cases hname
  split_ifs
  · exact hpages _ _ hentered fun f hf => (mem_filter.1 hf).1
  · exact hentered

lemma leaveMethod (h : ctx.Neat) : ctx.leaveMethod.2.Neat :=
  ⟨.inr rfl, by rintro _ ⟨⟩; rfl, h.within, forall_mem_nil _⟩

lemma controlHeader? (h : ctx.Neat) {t header : Text} {after : Context}
    (hheader : controlHeader? ctx t = some (header, after)) : after.Neat := by
  rw [Conversion.controlHeader?] at hheader
  split at hheader
  · cases hheader
    exact h
  · split at hheader
    · rename_i name listed hloop
      cases hheader
      refine h.declare ?_ _
      obtain ⟨r, -, hloop⟩ := bind_eq_some_iff.1 hloop
      obtain ⟨start, -, hloop⟩ := exists_of_findSome?_eq_some hloop
      obtain ⟨rest, -, hloop⟩ := exists_of_findSome?_eq_some hloop
      obtain ⟨found, hfound, hloop⟩ := bind_eq_some_iff.1 hloop
      obtain ⟨_, -, hfound⟩ := bind_eq_some_iff.1 hfound
      obtain ⟨_, -, hloop⟩ := bind_eq_some_iff.1 hloop
      obtain ⟨_, -, hloop⟩ := bind_eq_some_iff.1 hloop
      cases hloop
      exact isWordText_of_word? hfound
    · obtain ⟨_, -, hheader⟩ := map_eq_some_iff.1 hheader
      cases hheader
      exact h

end Context.Neat

/-! ## Statements -/

section Steps

variable {ms : List Mention} {around : Surroundings} {w w' : Walk} {s : Statement} {info : ClassInfo}
  {style : Style} (recognizer : Option Recognizer)

lemma surveyed_noteCalls (w : Walk) (mark : Nat) : ∀ c ∈ noteCalls recognizer w mark, Surveyed ms c := by
  rw [noteCalls]
  cases best? recognizer w.asked w.context.actions with
  | none => exact forall_mem_nil _
  | some best =>
    refine forall_mem_singleton.2 (.insert mark ?_)
    exact accounted_of_start rfl rfl rfl fun _ => rfl

lemma surveyed_inlineCalls (hneat : w.context.Neat) (recognizer : Option Recognizer) (line : Nat)
    (body : Text) (mark : Nat) :
    ∀ c ∈ inlineCalls recognizer w line body mark,
      Surveyed (if body.isEmpty then [] else statementMentions body w.context) c := by
  rw [inlineCalls]
  split
  · refine forall_mem_append.2 ⟨?_, forall_mem_cons.2 ⟨.closeScope, surveyed_noteCalls _ _ mark⟩⟩
    split_ifs
    · exact forall_mem_nil _
    · exact surveyed_convertCalls hneat line body
  · exact forall_mem_nil _

lemma surveyed_methodCalls (h : around.lookup.Named) (hneat : w.context.Neat) (hinfo : info.Named)
    (s : Statement) (style : Style) (hname : isWordText sig.name = true) (annotations : List Text)
    (opened : Bool) :
    ∀ c ∈ methodCalls around w s info style sig annotations opened,
      Surveyed (methodMentions around.lookup w info style sig annotations opened) c := by
  rw [methodCalls, methodMentions]
  by_cases hskipped : sig.isConstructor = true ∨ trim sig.ending = ";".toList
  · rw [if_pos hskipped]
    exact forall_mem_nil _
  rw [if_neg hskipped, if_neg hskipped]
  refine forall_mem_cons.2 ⟨.blank, forall_mem_append.2 ⟨fun c hc => ?_, ?_⟩⟩
  · exact (surveyed_startCalls h hinfo style hname annotations _ _ c hc).mono (subset_append_left _ _)
  · cases opened with
    | true => exact forall_mem_nil _
    | false =>
      have hblank : (w.onSheet (·.blank)).context.Neat := hneat
      have hstarted := hblank.startMethod around.lookup hinfo style sig annotations
      intro c hc
      refine (surveyed_inlineCalls hstarted _ _ _ _ c hc).mono ?_
      simp only [Bool.false_eq_true, false_or]
      exact subset_append_right _ _

lemma surveyed_memberCalls (h : around.lookup.Named) (hneat : w.context.Neat) (hinfo : info.Named)
    (s : Statement) (style : Style) (bodyDepth : Nat) :
    ∀ c ∈ memberCalls around w s info style bodyDepth,
      Surveyed (memberMentions around.lookup w s info style bodyDepth) c := by
  have hcleared : ({ w with pending := [] } : Walk).context.Neat := hneat
  rw [Walk.memberCalls_eq, Walk.memberMentions_eq]
  cases Walk.memberPlace s info style with
  | waiting hcase | skipped _ _ hcase =>
    rw [hcase]
    exact forall_mem_nil _
  | method sig _ hsig hcase =>
    rw [hcase, hcase]
    exact surveyed_methodCalls h hcleared hinfo s style (signature?_parts hsig).1 _ _
  | field f hfield hcase =>
    rw [hcase, hcase]
    exact surveyed_fieldCalls around.lookup style (isWordText_of_field? hfield) _

lemma surveyed_unwindCalls (w : Walk) (frames : List Frame) :
    ∀ c ∈ unwindCalls recognizer w frames, Surveyed ms c := by
  intro c hc
  rcases mem_unwindCalls hc with rfl | rfl | ⟨_, _, hnote⟩
  · exact .closeScope
  · exact .blank
  · exact surveyed_noteCalls _ _ _ c hnote

lemma surveyed_withinCalls (h : around.lookup.Named) (hneat : w.context.Neat) (s : Statement) (before : Nat)
    (hinfo : ∀ info style depth, frame = some ⟨.classBody info style, depth⟩ → info.Named) :
    ∀ c ∈ withinCalls around w before s frame,
      Surveyed (withinMentions around.lookup w before s frame) c := by
  unfold withinCalls withinMentions
  by_cases hclosers : Walk.isClosersOnly s.text = true ∧ (!Walk.isCommented frame) = true
  · rw [if_pos hclosers]
    exact forall_mem_nil _
  rw [if_neg hclosers, if_neg hclosers]
  rcases frame with _ | ⟨_ | ⟨info, style⟩ | ⟨name, mark⟩ | _ | _, depth⟩
  · exact surveyed_topLevelCalls h s w.bound
  · exact forall_mem_nil _
  · dsimp only
    split_ifs
    · exact surveyed_memberCalls h hneat (hinfo info style depth rfl) s style depth
    · exact forall_mem_nil _
  · exact surveyed_bodyCalls hneat s false
  · exact surveyed_bodyCalls hneat s true
  · exact surveyed_todoCalls s

end Steps

/-! ## Walks -/

namespace Walk

variable {around : Surroundings} {w w' : Walk} {s : Statement}

/-- The context of a walk is neat, and so are the names in the class that it stands in. -/
structure Neat (w : Walk) : Prop where
  context : w.context.Neat
  info : ∀ info style depth, w.frames.getLast? = some ⟨.classBody info style, depth⟩ → info.Named

lemma neat_openClass {l : Lookup} (h : ∀ c ∈ l.classes, c.Named) (hneat : w.context.Neat) (s : Statement)
    {header : ClassHeader} (hname : isWordText header.name = true) :
    (w.openClass l s header).context.Neat := by
  by_cases hkind : header.kind = "class".toList
  · obtain ⟨info, style, hinfo, -, -, hopen⟩ := w.openClass_eq l s header hkind
    have hinside := hneat.classContext l (hinfo ▸ Lookup.named_own? h hname) style
    obtain ⟨_, hw⟩ := (w.onContext (classContext l info style)).context_openStyle l info style
    have hopened : ((w.onContext (classContext l info style)).openStyle l info style).context.Neat := by
      rw [hw]
      exact ⟨hinside.page, hinside.self, hinside.within, hinside.scope⟩
    rw [hopen]
    split_ifs <;> exact hopened
  · rw [openClass, if_pos hkind]
    exact hneat.diagnose ..

section

variable (hneat : w.context.Neat)
include hneat

lemma neat_skip (s : Statement) (reason : Text) (opened : Bool) :
    (w.skip s reason opened).context.Neat := by
  rw [context_skip]
  exact hneat.diagnose ..

lemma neat_convert {line : Nat} {text : Text} (h : w.convert line text = .ok w') : w'.context.Neat := by
  obtain ⟨converted, hconverted, h⟩ := exists_of_bind_eq_ok h
  cases h
  exact (statement_accounts hneat hconverted).neat

lemma neat_method {annotations : List Text} {opened : Bool} (hinfo : info.Named)
    (h : w.method around s info style sig annotations opened = .ok w') : w'.context.Neat := by
  have hblank : (w.onSheet (·.blank)).context.Neat := hneat
  have hstarted := hblank.startMethod around.lookup hinfo style sig annotations
  rcases method_cases h with ⟨-, rfl | rfl⟩ | ⟨-, rfl, rfl⟩ | ⟨-, rfl, after, hafter, rfl⟩
  · exact neat_skip hneat s _ opened
  · exact hneat.diagnose ..
  · exact hstarted
  · have hconverted : after.context.Neat := by
      split_ifs at hafter
      · cases hafter
        exact hstarted
      · exact neat_convert hstarted hafter
    rw [context_finishMethod]
    exact hconverted.leaveMethod

lemma neat_member {bodyDepth : Nat} (hinfo : info.Named)
    (h : w.member around s info style bodyDepth = .ok w') : w'.context.Neat := by
  have hcleared : ({ w with pending := [] } : Walk).context.Neat := hneat
  rw [member_eq] at h
  cases memberPlace s info style with
  | waiting hcase =>
    rw [hcase] at h
    cases h
    exact hneat
  | skipped reason _ hcase =>
    rw [hcase] at h
    cases h
    exact neat_skip hcleared s reason _
  | method sig _ _ hcase =>
    rw [hcase] at h
    exact neat_method hcleared hinfo h
  | field f _ hcase =>
    rw [hcase] at h
    cases h
    rcases context_field _ around.lookup s style f _ with hw | ⟨_, hw⟩
    · rw [hw]
      exact hneat
    · rw [hw]
      exact hneat.diagnose ..

lemma neat_bodyStatement {inBlock : Bool} (h : w.bodyStatement s inBlock = .ok w') : w'.context.Neat := by
  rcases context_bodyStatement h with hw | ⟨_, _, hheader⟩ | ⟨_, hw⟩ | ⟨_, _, hstatement⟩
  · rw [hw]
    exact hneat
  · exact hneat.controlHeader? hheader
  · rw [hw]
    exact hneat.diagnose ..
  · exact (statement_accounts hneat hstatement).neat

lemma neat_unwindFrames (recognizer : Option Recognizer) (frames : List Frame) :
    (unwindFrames recognizer w frames).context.Neat := by
  rcases w.unwindFrames_context recognizer frames with hw | hw
  · rw [hw]
    exact hneat
  · rw [hw]
    exact hneat.leaveMethod

end

lemma neat_within {before : Nat} (h : ∀ c ∈ around.lookup.classes, c.Named) (hneat : w.context.Neat)
    (hinfo : ∀ info style depth, frame = some ⟨.classBody info style, depth⟩ → info.Named)
    (hwithin : w.within around before s frame = .ok w') : w'.context.Neat := by
  rcases within_cases hwithin with rfl | ⟨-, rfl⟩ | ⟨-, rfl⟩ | ⟨_, _, _, -, -, hbody⟩ |
    ⟨info, style, hframe, hmember⟩
  · exact hneat
  · have hcleared : ({ w with pending := [] } : Walk).context.Neat := hneat
    rcases w.topLevel_cases around.lookup s before with ⟨-, reason, -, hw⟩ |
      ⟨-, ⟨-, hw⟩ | ⟨-, ⟨header, hheader, hw⟩ | ⟨-, hw⟩⟩⟩
    · rw [hw]
      exact hneat.diagnose ..
    · rw [hw]
      exact hneat
    · rw [hw]
      exact neat_openClass h hcleared s (classHeader?_parts hheader).1
    · rw [hw]
      exact neat_skip hcleared s _ _
  · exact hneat.diagnose ..
  · exact neat_bodyStatement hneat hbody
  · exact neat_member hneat (hinfo info style before hframe) hmember

lemma Neat.head_named (h : w.Neat) (hn : w.Nests) : ∀ info style depth,
    w.frames.head? = some ⟨.classBody info style, depth⟩ → info.Named := by
  intro info style depth hhead
  refine h.info info style depth ?_
  rw [hn.classBody_alone hhead]
  rfl

/-- **One statement** leaves names as neat as they were. -/
lemma Neat.step (h : w.Neat) (hlookup : ∀ c ∈ around.lookup.classes, c.Named) (hn : w.Nests)
    (hstep : w.step around s = .ok w') : w'.Neat := by
  by_cases hcomment : s.isComment = true
  · obtain ⟨hframes, -, -, hcontext⟩ := step_comment hcomment hstep
    exact ⟨hcontext ▸ h.context, hframes ▸ h.info⟩
  have hcode : s.isComment = false := by simpa using hcomment
  refine ⟨?_, fun info style depth hlast' => ?_⟩
  · obtain ⟨inside, hinside, rfl⟩ := step_code hcode hstep
    have hcount : (w.count s).context.Neat := by
      rw [w.context_count s]
      exact h.context
    exact neat_unwindFrames (neat_within hlookup hcount (h.head_named hn) hinside) _ _
  · rcases hn.outermost_before hstep hlast' with hlast | hnone
    · exact h.info info style depth hlast
    · obtain ⟨-, hframe, -⟩ := hn.outermost_opened hstep hnone hlast'
      obtain ⟨header, hopens⟩ := exists_opensClass hnone hcode hstep hframe
      rw [hopens.info_eq]
      exact Lookup.named_own? hlookup (classHeader?_parts hopens.classHeader).1

lemma Neat.foldlM {statements : List Statement} (h : w.Neat)
    (hlookup : ∀ c ∈ around.lookup.classes, c.Named) (hn : w.Nests)
    (hwalk : statements.foldlM (Walk.step around) w = .ok w') : w'.Neat :=
  (foldlM_invariant (P := fun w => w.Neat ∧ w.Nests)
    (fun h hnext => ⟨h.1.step hlookup h.2 hnext, h.2.step hnext⟩) hwalk ⟨h, hn⟩).1

end Walk

/-- **One statement** names the classes of its mentions and no others. -/
lemma surveyed_stepCalls {s : Statement} (h : around.lookup.Named) (hw : w.Neat) (hn : w.Nests)
    (hcode : s.isComment = false) :
    ∀ c ∈ stepCalls around w s, Surveyed (stepMentions around.lookup w s) c := by
  have hcount : (w.count s).context.Neat := by
    rw [w.context_count s]
    exact hw.context
  rw [stepCalls, stepMentions, if_neg (by simp [hcode]), if_neg (by simp [hcode])]
  refine forall_mem_append.2 ⟨forall_mem_append.2 ⟨?_, ?_⟩, ?_⟩
  · rw [countCalls]
    split_ifs
    · exact forall_mem_singleton.2 .closeScope
    · exact forall_mem_nil _
  · exact surveyed_withinCalls h hcount s w.depth (hw.head_named hn)
  · split
    · exact surveyed_unwindCalls _ _ _
    · exact forall_mem_nil _

def CopiesComment (statements : List Statement) (c : Call) : Prop :=
  ∃ s ∈ statements, s.isComment = true ∧ c = .emit (s.rawLines.map Walk.commentLine)

/-- **A walk** names the classes of its mentions and no others, except in comments. -/
lemma surveyed_walkCalls (h : around.lookup.Named) (hw : w.Neat) (hn : w.Nests)
    (statements : List Statement) :
    ∀ c ∈ walkCalls around w statements,
      Surveyed (walkMentions around w statements) c ∨ CopiesComment statements c := by
  induction statements generalizing w with
  | nil => exact forall_mem_nil _
  | cons s rest ih =>
    rw [walkMentions]
    refine forall_mem_append.2 ⟨fun c hc => ?_, fun c hc => ?_⟩
    · cases hcode : s.isComment with
      | false => exact .inl ((surveyed_stepCalls h hw hn hcode c hc).mono (subset_append_left _ _))
      | true =>
        rw [stepCalls] at hc
        split_ifs at hc
        · exact .inr ⟨s, mem_cons_self, hcode, mem_singleton.1 hc⟩
        · cases hc
    · cases hstep : w.step around s with
      | error fault =>
        rw [hstep] at hc
        cases hc
      | ok next =>
        rw [hstep] at hc
        have hlater := ih (hw.step h.classes hn hstep) (hn.step hstep) c hc
        refine hlater.imp (·.mono (subset_append_right _ _)) ?_
        rintro ⟨t, ht, hcopies⟩
        exact ⟨t, mem_cons_of_mem _ ht, hcopies⟩

namespace Task

variable (t : Task)

lemma start_neat : t.start.Neat :=
  ⟨⟨.inr rfl, by rintro _ ⟨⟩; rfl, by rintro _ ⟨⟩, forall_mem_nil _⟩, by rintro _ _ _ ⟨⟩⟩

variable {t}

variable (hproject : ∀ p ∈ t.project, p.Regular)
include hproject

lemma surveyed_written :
    ∀ c ∈ walkCalls t.surroundings t.start t.document.statements,
      Surveyed t.mentions c ∨ CopiesComment t.document.statements c :=
  surveyed_walkCalls ⟨hproject, fun _ hc => named_of_mem_classes hc⟩ t.start_neat t.start_nests _

/-- **A file** names the classes of its mentions and no others, except in comments and imports. -/
lemma surveyed_calls :
    ∀ c ∈ t.calls, Surveyed t.mentions c ∨ CopiesComment t.document.statements c ∨
      ∃ line, c = .addImport line := by
  refine forall_mem_append.2 ⟨fun c hc => ?_, fun c hc => ?_⟩
  · exact (surveyed_written hproject c hc).imp_right .inl
  split at hc
  · obtain ⟨line, -, rfl⟩ := mem_map.1 hc
    exact .inr (.inr ⟨line, rfl⟩)
  · cases hc

lemma addImport_mem_calls (hwalk : t.walk = .ok w) {line : Text} :
    Call.addImport line ∈ t.calls ↔ line ∈ w.context.imports := by
  rw [calls, hwalk, mem_append]
  constructor
  · rintro (hc | hc)
    · rcases surveyed_written hproject _ hc with hsurveyed | ⟨s, -, -, hcopied⟩
      · exact absurd rfl (hsurveyed.body line)
      · cases hcopied
    · obtain ⟨found, hfound, hsame⟩ := mem_map.1 hc
      cases hsame
      exact hfound
  · exact fun hline => .inr (mem_map_of_mem hline)

end Task

end Restage.Conversion
