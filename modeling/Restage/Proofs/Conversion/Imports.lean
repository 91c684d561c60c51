import Restage.Proofs.Conversion.NamedClasses

/-!
# Imports of mentioned classes

Every class of another module that the code names should be imported.  The imports of a file are
those that its mentions ask for, and a mention asks for the class that it names unless it is written
inside a class of that name.  Two kinds of types are an exception: only one pair of array brackets
is taken off the type of a parameter or of a result before the class is looked up, and the type of a
property is not looked at.  `import_written_iff` says which mentions bring an import, and that the
mentions are what the code names; `nested_array_not_imported` is a file whose code names a class
that it does not import.
-/

namespace Restage.Conversion

open Text Java TypeScript List Option

variable {name target path line : Text} {importer : Option Text}

/-! ## Import lines -/

/-- The line that imports a class. -/
def importLine (name path : Text) : Text := "import \x7b " ++ name ++ " \x7d from '" ++ path ++ "';"

lemma importLine_inj {other path' : Text} (hname : isWordText name = true)
    (hother : isWordText other = true) (h : importLine name path = importLine other path') :
    name = other ∧ path = path' := by
  have hread : ∀ {t : Text} (rest : Text), isWordText t = true →
      (t ++ ' ' :: rest).takeWhile isWord = t := by
    intro t rest ht
    rw [takeWhile_append_of_pos (all_isWord ht), takeWhile_cons_of_neg (by decide), append_nil]
  have hrest : name ++ ' ' :: ("\x7d from '" ++ path ++ "';") =
      other ++ ' ' :: ("\x7d from '" ++ path' ++ "';") := by
    unfold importLine at h
    simpa using h
  have hsame : name = other := by
    rw [← hread ("\x7d from '" ++ path ++ "';") hname, hrest, hread _ hother]
  subst hsame
  simpa using hrest

lemma head?_specifier? (h : Module.specifier? target importer = some path) : path.head? = some '.' := by
  rw [Module.specifier?] at h
  split_ifs at h with hempty
  dsimp only at h
  split_ifs at h with hdot
  · obtain ⟨rest, hrest⟩ := isPrefixOf_iff_prefix.1 hdot
    cases h
    rw [← hrest]
    rfl
  · cases h
    rfl

lemma stepsImport_ne (hname : isWordText name = true)
    (h : Module.specifier? target importer = some path) : importLine name path ≠ stepsImport := by
  intro hsame
  have hkeywords : stepsImport = importLine "createBdd" "playwright-bdd" := by decide
  have hpath := (importLine_inj hname (by decide +kernel) (hsame.trans hkeywords)).2
  have hhead := head?_specifier? h
  rw [hpath] at hhead
  exact absurd hhead (by decide)

/-! ## Mentions that bring an import -/

/-- Whether the class of a name is imported that is written for this. -/
def Usage.imports : Usage → Bool
  | .property _ | .keywords => false
  | _ => true

/-- Whether array brackets are taken off a name that is written for this. -/
def Usage.isType : Usage → Bool
  | .parameter _ | .result => true
  | _ => false

/-- A mention brings the import of a class: it stands outside of the classes of that name, and it
names the class, or as a type an array of it. -/
def Mention.Brings (name : Text) (m : Mention) : Prop :=
  m.within ≠ some name ∧ m.usage.imports = true ∧
    (m.name = name ∨ m.usage.isType = true ∧ m.name = name ++ "[]")

instance (name : Text) (m : Mention) : Decidable (m.Brings name) :=
  inferInstanceAs (Decidable (_ ∧ _ ∧ _))

section Brings

variable {p : Project} {name path : Text} {module : Option Text}

lemma dropBrackets_append (t : Text) : dropBrackets (t ++ "[]") = t := by
  have hend : endsWith "[]" (t ++ "[]") = true := isSuffixOf_iff_suffix.2 (suffix_append t "[]".toList)
  rw [dropBrackets, arrayElement?, if_pos hend]
  simp

lemma dropBrackets_eq_iff (hname : isWordText name = true) (t : Text) :
    dropBrackets t = name ↔ t = name ∨ t = name ++ "[]" := by
  have hbare : ¬endsWith "[]" name = true := by
    intro hend
    obtain ⟨rest, hrest⟩ := isSuffixOf_iff_suffix.1 hend
    have hbracket := all_isWord hname ']' (by rw [← hrest]; simp)
    exact absurd hbracket (by decide)
  constructor
  · intro h
    by_cases hend : endsWith "[]" t = true
    · obtain ⟨rest, rfl⟩ := isSuffixOf_iff_suffix.1 hend
      rw [dropBrackets_append] at h
      exact .inr (by rw [h])
    · rw [dropBrackets, arrayElement?, if_neg hend] at h
      exact .inl h
  · rintro (rfl | rfl)
    · rw [dropBrackets, arrayElement?, if_neg hbare]
      rfl
    · exact dropBrackets_append name

lemma get?_of_has (h : p.Regular) (hclass : p.has name = true) :
    ∃ c, p.get? name = some c ∧ c.name = name ∧ isWordText name = true := by
  obtain ⟨c, hc⟩ := isSome_iff_exists.1 hclass
  obtain ⟨hname, hword⟩ := h.classes name c hc
  have hlast : afterLast '.' name = name := by
    refine afterLast_of_not_mem fun hdot => ?_
    exact absurd (all_isWord hword '.' hdot) (by decide)
  exact ⟨c, by rw [Project.get?, if_neg (not_isEmpty_of_isWordText hword), hlast, hc], hname, hword⟩

lemma importOf?_eq_importLine (hregular : p.Regular) (hclass : p.has name = true)
    (hother : p.modules.get? name ≠ module) (hpath : p.specifier? name module = some path)
    (within : Option Text) (t : Text) :
    ({ project := some p, module, className := within } : Context).importOf? t =
      some (importLine name path) ↔ t = name ∧ within ≠ some name := by
  obtain ⟨-, -, -, hword⟩ := get?_of_has hregular hclass
  have himport : ({ project := some p, module, className := within } : Context).importOf? t =
      if within = some t ∨ p.modules.get? t = module then none
      else (p.specifier? t module).bind fun path => some (importLine t path) := rfl
  rw [himport]
  constructor
  · intro h
    split_ifs at h with hnone
    obtain ⟨path', hpath', hline⟩ := bind_eq_some_iff.1 h
    obtain ⟨target, htarget, -⟩ := bind_eq_some_iff.1 hpath'
    obtain ⟨rfl, -⟩ := importLine_inj (hregular.modules t target htarget) hword (some.inj hline)
    exact ⟨rfl, fun hwithin => hnone (.inl hwithin)⟩
  · rintro ⟨rfl, hwithin⟩
    rw [if_neg (by simp [hwithin, hother]), hpath, bind_some]

/-- **A mention** asks for the import line of a class exactly if it brings the class. -/
lemma import?_eq_importLine {l : Lookup} (hproject : l.project = some p) (hregular : p.Regular)
    (hclass : p.has name = true) (hother : p.modules.get? name ≠ module)
    (hpath : p.specifier? name module = some path) (m : Mention) :
    m.import? l module = some (importLine name path) ↔ m.Brings name := by
  obtain ⟨c, hget, hname, hword⟩ := get?_of_has hregular hclass
  obtain ⟨target, -, htarget⟩ := bind_eq_some_iff.1 hpath
  have hkeywords := stepsImport_ne hword htarget
  have himport : ∀ t, ({ project := l.project, module, className := m.within } : Context).importOf? t =
      some (importLine name path) ↔ t = name ∧ m.within ≠ some name := by
    rw [hproject]
    exact importOf?_eq_importLine hregular hclass hother hpath m.within
  generalize importLine name path = line at hkeywords himport
  obtain ⟨usage, t, within⟩ := m
  have htype : (if (l.class? (dropBrackets t)).isSome then
        ({ project := l.project, module, className := within } : Context).importOf? (dropBrackets t)
      else none) = some line ↔ (t = name ∨ t = name ++ "[]") ∧ within ≠ some name := by
    have hknown : dropBrackets t = name ∧ within ≠ some name →
        (l.class? (dropBrackets t)).isSome = true := by
      rintro ⟨ht, -⟩
      rw [ht, Lookup.class?, if_neg (not_isEmpty_of_isWordText hword), hproject, bind_some, hget]
      rfl
    rw [ite_none_right_eq_some, himport, and_iff_right_of_imp hknown, dropBrackets_eq_iff hword]
  cases usage with
  | base | constructed | thrown | unwritten =>
    refine (himport t).trans ?_
    simp [Mention.Brings, Usage.imports, Usage.isType, and_comm]
  | receiver method =>
    have hlooked : Mention.import? l module ⟨.receiver method, t, within⟩ = some line ↔
        (l.project.bind (·.get? t)).any (·.name = t) = true ∧ t = name ∧ within ≠ some name := by
      rw [← himport t]
      exact ite_none_right_eq_some
    have hknown : t = name ∧ within ≠ some name →
        (l.project.bind (·.get? t)).any (·.name = t) = true := by
      rintro ⟨rfl, -⟩
      simp [hproject, hget, hname]
    rw [hlooked, and_iff_right_of_imp hknown]
    simp [Mention.Brings, Usage.imports, Usage.isType, and_comm]
  | parameter x | result =>
    refine htype.trans ?_
    simp [Mention.Brings, Usage.imports, Usage.isType, and_comm]
  | property x => simp [Mention.import?, Mention.Brings, Usage.imports]
  | keywords =>
    have hnone : ¬some stepsImport = some line := fun h => hkeywords (some.inj h).symm
    exact iff_of_false hnone (by simp [Mention.Brings, Usage.imports])

end Brings

/-! ## Files -/

/-- A text of lines that are ended by line feeds has the given line. -/
def HasLine (code line : Text) : Prop := ∃ above below, code = join "\n" (above ++ line :: below) ++ "\n"

lemma hasLine_render {s : Sheet} (h : line ∈ s.imports) : HasLine s.render line := by
  have hall : line ∈ s.allImports := (Sheet.mem_foldl_addNew).2 (.inr (mem_append_right _ h))
  have hne : ¬s.allImports.isEmpty = true := by
    intro hempty
    rw [isEmpty_iff.1 hempty] at hall
    cases hall
  obtain ⟨above, below, hlines⟩ := append_of_mem
    (mem_append_left (s.closedBody.map Sheet.indented) (mem_append_left [[]] hall))
  refine ⟨above, below, ?_⟩
  rw [Sheet.render, Sheet.header, if_neg hne, hlines]

lemma imports_finishedSheet {w : Walk} (h : line ∈ w.context.imports) :
    line ∈ (Task.finishedSheet w).imports := by
  have hadded : ∀ (lines : List Text) (s : Sheet),
      (lines.foldl Sheet.addImport s).imports = lines.foldl addNew s.imports := by
    intro lines
    induction lines with
    | nil => exact fun _ => rfl
    | cons first rest ih => exact fun s => ih (s.addImport first)
  rw [Task.finishedSheet, hadded]
  exact Sheet.mem_foldl_addNew.2 (.inr h)

lemma Mention.text_ne_nil {m : Mention} (h : m.usage ≠ .unwritten) : m.text ≠ [] := by
  obtain ⟨usage, name, within⟩ := m
  cases usage with
  | unwritten => exact absurd rfl h
  | base | constructed | thrown | receiver | result | keywords => exact cons_ne_nil _ _
  | parameter x | property x => simp [Mention.text]

/-- **Imports.**  Let a class of a project live in another module than the file.  The sheet is asked
for the import exactly if a mention brings it, and then the code has the line.  The mentions are the
classes that the code names: it shows them all, and what it names outside of comments and imports is
mentioned. -/
theorem import_written_iff {t : Task} {o : Output} {p : Project} {name path : Text}
    (hrun : t.run = .ok o) (hproject : t.project = some p) (hregular : p.Regular)
    (hclass : p.has name = true) (hother : p.modules.get? name ≠ t.module)
    (hpath : p.specifier? name t.module = some path) :
    (Call.addImport (importLine name path) ∈ t.calls ↔ ∃ m ∈ t.mentions, m.Brings name) ∧
    ((∃ m ∈ t.mentions, m.Brings name) → HasLine o.code (importLine name path)) ∧
    (∀ m ∈ t.mentions, m.usage ≠ .unwritten → m.text <:+: o.code) ∧
    o.code = (Sheet.performAll { baseImports := t.baseImports } t.calls).render ∧
    ∀ c ∈ t.calls, Surveyed t.mentions c ∨ CopiesComment t.document.statements c ∨
      ∃ line, c = .addImport line := by
  have hprojects : ∀ q ∈ t.project, q.Regular := by
    rw [hproject]
    rintro _ ⟨⟩
    exact hregular
  have hcode := Task.run_code hrun
  obtain ⟨w, hwalk, hrun⟩ := exists_of_bind_eq_ok hrun
  cases hrun
  have hwrites := Walk.foldlM_writes ⟨rfl, rfl⟩ hwalk
  have hbrought : importLine name path ∈ w.context.imports ↔ ∃ m ∈ t.mentions, m.Brings name := by
    rw [hwrites.collects.imports, Sheet.mem_foldl_addNew]
    have hstart : importLine name path ∉ t.start.context.imports := List.not_mem_nil
    rw [or_iff_right hstart, List.mem_filterMap]
    refine exists_congr fun m => and_congr_right fun _ => ?_
    exact import?_eq_importLine hproject hregular hclass hother hpath m
  refine ⟨(Task.addImport_mem_calls hprojects hwalk).trans hbrought, fun hbrings => ?_,
    fun m hm hwritten => ?_, hcode, Task.surveyed_calls hprojects⟩
  · exact hasLine_render (imports_finishedSheet (hbrought.2 hbrings))
  · obtain ⟨line, hline, htext⟩ := hwrites.written m hm hwritten
    have hne : line ≠ [] := by
      rintro rfl
      exact Mention.text_ne_nil hwritten (List.infix_nil.1 htext)
    rw [Sheet.bodyTexts, ← body_finishedSheet] at hline
    exact htext.trans (Sheet.infix_render hline hne)

/-- A parameter of an array type brings the class of its items. -/
theorem array_of_pages_imported :
    let p : Project := ({} : Project).add (some "a/FooPage") { name := "FooPage" }
    let t : Task :=
      { document := ⟨["class A \x7b", "void m(FooPage[] x) \x7b", "\x7d", "\x7d"]⟩
        project := some p
        module := some "b/A" }
    ∃ o, t.run = .ok o ∧ p.Regular ∧ p.has "FooPage" = true ∧ p.modules.get? "FooPage" ≠ t.module ∧
      p.specifier? "FooPage" t.module = some "../a/FooPage".toList ∧
      (∃ m ∈ t.mentions, m.usage = .parameter "x" ∧ m.name = "FooPage[]".toList) ∧
      Call.addImport "import \x7b FooPage \x7d from '../a/FooPage';" ∈ t.calls ∧
      HasLine o.code "import \x7b FooPage \x7d from '../a/FooPage';" := by
  intro p t
  obtain ⟨o, hrun⟩ : ∃ o, t.run = .ok o := by
    obtain ⟨o, hrun, -⟩ : ∃ o, t.run = .ok o ∧ o.droppedClosers = 0 :=
      exists_of_any_toOption (by decide +kernel)
    exact ⟨o, hrun⟩
  have hregular : p.Regular := .add ⟨by rintro _ _ ⟨⟩, by rintro _ _ ⟨⟩⟩ _ (by decide)
  obtain ⟨hclass, hother, hpath⟩ : p.has "FooPage" = true ∧ p.modules.get? "FooPage" ≠ t.module ∧
      p.specifier? "FooPage" t.module = some "../a/FooPage".toList := by decide +kernel
  have hmention : ∃ m ∈ t.mentions, m.usage = .parameter "x" ∧ m.name = "FooPage[]".toList := by
    decide +kernel
  have hbrings : ∃ m ∈ t.mentions, m.Brings "FooPage" := by decide +kernel
  obtain ⟨hadded, hline, -⟩ := import_written_iff hrun rfl hregular hclass hother hpath
  exact ⟨o, hrun, hregular, hclass, hother, hpath, hmention, hadded.2 hbrings, hline hbrings⟩

/-- A parameter whose type has two pairs of brackets: the code names the class of the items and does
not have its import. -/
theorem nested_array_not_imported :
    let p : Project := ({} : Project).add (some "a/FooPage") { name := "FooPage" }
    let t : Task :=
      { document := ⟨["class A \x7b", "void m(FooPage[][] x) \x7b", "\x7d", "\x7d"]⟩
        project := some p
        module := some "b/A"
        baseImports := ({} : Settings).baseImports }
    ∃ o, t.run = .ok o ∧ p.has "FooPage" = true ∧ p.modules.get? "FooPage" ≠ t.module ∧
      p.specifier? "FooPage" t.module = some "../a/FooPage".toList ∧
      "  async m(x: FooPage[][]): Promise<void> \x7b".toList ∈ lines o.code ∧
      "import \x7b FooPage \x7d from '../a/FooPage';".toList ∉ lines o.code := by
  intro p t
  obtain ⟨o, hrun, hnamed, hmissing⟩ : ∃ o, t.run = .ok o ∧
      "  async m(x: FooPage[][]): Promise<void> \x7b".toList ∈ lines o.code ∧
      "import \x7b FooPage \x7d from '../a/FooPage';".toList ∉ lines o.code :=
    exists_of_any_toOption (by decide +kernel)
  obtain ⟨hclass, hother, hpath⟩ : p.has "FooPage" = true ∧ p.modules.get? "FooPage" ≠ t.module ∧
      p.specifier? "FooPage" t.module = some "../a/FooPage".toList := by decide +kernel
  exact ⟨o, hrun, hclass, hother, hpath, hnamed, hmissing⟩

end Restage.Conversion
