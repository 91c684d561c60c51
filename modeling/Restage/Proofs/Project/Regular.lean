import Restage.Project.Basic
import Restage.Proofs.Project.TopLevelClasses
import Restage.Proofs.Runs

/-!
# Regular projects

A class gets its name from its header, where it is read as a word, and keeps it while its record is
filled.  So in the project of some files every class is entered under its own name, and the names of
classes and modules are words (`Project.regular_ofFiles`).
-/

namespace Restage

open Text Java List Option

/-! ## Names of classes -/

lemma isWordText_of_field? {t : Text} {f : FieldHeader} (hfield : field? t = some f) :
    isWordText f.name = true := by
  obtain ⟨start, -, hread⟩ := exists_of_findSome?_eq_some (filter_eq_some_iff.1 hfield).1
  obtain ⟨rest, -, hread⟩ := exists_of_findSome?_eq_some hread
  obtain ⟨name, hname, hread⟩ := bind_eq_some_iff.1 hread
  obtain ⟨r, -, hname⟩ := bind_eq_some_iff.1 hname
  obtain ⟨initial, -, hread⟩ := bind_eq_some_iff.1 hread
  cases hread
  exact isWordText_of_word? hname

/-- The name of a class and those of its fields are words. -/
structure ClassInfo.Named (c : ClassInfo) : Prop where
  name : isWordText c.name = true
  fields : ∀ f ∈ c.fields, isWordText f.name = true

/-- The names in a record are words. -/
def OpenClass.Named (c : OpenClass) : Prop :=
  isWordText c.name = true ∧ ∀ f ∈ c.fields, isWordText f.name = true

variable {a : Analysis} {c : ClassInfo} {p : Project} {root : Option Path}

namespace Analysis

lemma EntersMember.named {s : Statement} {c c' : OpenClass} (h : EntersMember a s c c') (hc : c.Named) :
    c'.Named := by
  cases h with
  | finished | method => exact hc
  | field f hf =>
    refine ⟨hc.1, fun g hg => ?_⟩
    rcases mem_append.1 hg with hg | hg
    · exact hc.2 g hg
    · rw [mem_singleton.1 hg]
      exact isWordText_of_field? hf

/-- The names in all records are words. -/
def WordsOnly (a : Analysis) : Prop := ∀ c ∈ a.finished ++ a.stack, c.Named

lemma WordsOnly.step (h : a.WordsOnly) (s : Statement) : (a.step s).WordsOnly := by
  cases hcode : s.isComment with
  | true =>
    rw [step_comment hcode]
    exact h
  | false =>
    obtain ⟨left, hfinished, hrecords⟩ := records_step (a := a) hcode
    rw [WordsOnly, forall_mem_append] at h
    rw [WordsOnly, hfinished, append_assoc, forall_mem_append]
    refine ⟨h.1, ?_⟩
    generalize left ++ (a.step s).stack = records at hrecords
    cases hrecords with
    | same => exact h.2
    | declared header depth hheader =>
      exact forall_mem_cons.2 ⟨⟨(classHeader?_parts hheader).1, forall_mem_nil _⟩, h.2⟩
    | entered c c' outer hstack _ henters =>
      rw [hstack, forall_mem_cons] at h
      exact forall_mem_cons.2 ⟨henters.named h.2.1, h.2.2⟩

lemma WordsOnly.foldl (h : a.WordsOnly) (statements : List Statement) :
    (statements.foldl Analysis.step a).WordsOnly := by
  induction statements generalizing a with
  | nil => exact h
  | cons s rest ih => exact ih (h.step s)

end Analysis

lemma named_of_mem_classes {d : Document} {module : Option Text} (h : c ∈ d.classes module) : c.Named := by
  have hwords : (d.statements.foldl Analysis.step {}).WordsOnly :=
    Analysis.WordsOnly.foldl (by simp [Analysis.WordsOnly]) _
  obtain ⟨record, hrecord, rfl⟩ := mem_map.1 h
  obtain ⟨hname, hfields⟩ := hwords record (mem_mergeSort.1 hrecord)
  exact ⟨hname, hfields⟩

/-! ## Projects -/

lemma Table.get?_put {α : Type} (table : Table α) (name : Text) (value : α) (other : Text) :
    (table.put name value).get? other = if name = other then some value else table.get? other := by
  induction table with
  | nil => rfl
  | cons entry rest ih =>
    rw [put]
    split_ifs with hn hother hother
    · rw [get?, if_pos (hn.trans hother)]
    · rw [get?, if_neg fun h => hother (hn ▸ h), get?, if_neg fun h => hother (hn ▸ h)]
    · rw [get?, if_neg fun h => hn (h.trans hother.symm), ih, if_pos hother]
    · rw [get?, get?, ih, if_neg hother]

namespace Project

/-- Every class is entered under its own name, and all names are words. -/
structure Regular (p : Project) : Prop where
  classes : ∀ name c, p.classes.get? name = some c → c.name = name ∧ isWordText name = true
  modules : ∀ name module, p.modules.get? name = some module → isWordText name = true

lemma Regular.add (h : p.Regular) (module : Option Text) (hc : isWordText c.name = true) :
    (p.add module c).Regular := by
  unfold Project.add
  split_ifs
  · exact h
  · refine ⟨fun name d hget => ?_, fun name m hget => ?_⟩
    · rw [Table.get?_put] at hget
      split_ifs at hget with hname
      · cases hget
        exact ⟨hname, hname ▸ hc⟩
      · exact h.classes name d hget
    · cases module with
      | none => exact h.modules name m hget
      | some module =>
        rw [Table.get?_put] at hget
        split_ifs at hget with hname
        · exact hname ▸ hc
        · exact h.modules name m hget

lemma Regular.addFile {p' : Project} {f : SourceFile} (h : p.Regular)
    (hadd : Project.addFile root p f = .ok p') : p'.Regular := by
  rw [Project.addFile] at hadd
  cases hmodule : f.module root with
  | error e =>
    rw [hmodule] at hadd
    cases hadd
  | ok module =>
    rw [hmodule] at hadd
    cases hadd
    have hclasses : ∀ classes : List ClassInfo, (∀ c ∈ classes, isWordText c.name = true) →
        ∀ q : Project, q.Regular → (classes.foldl (fun p c => p.add module c) q).Regular := by
      intro classes
      induction classes with
      | nil => exact fun _ q hq => hq
      | cons c rest ih =>
        intro hwords q hq
        rw [forall_mem_cons] at hwords
        exact ih hwords.2 _ (hq.add module hwords.1)
    exact hclasses _ (fun c hc => (named_of_mem_classes hc).name) p h

/-- **The project of some files** is regular. -/
lemma regular_ofFiles {files : List SourceFile} (h : ofFiles files root = .ok p) : p.Regular :=
  foldlM_invariant Regular.addFile h ⟨by rintro _ _ ⟨⟩, by rintro _ _ ⟨⟩⟩

end Project

end Restage
