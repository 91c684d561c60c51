import Restage.Proofs.Project.Regular
import Restage.Proofs.Text.Order

/-!
# The order of the files of a project

A project is made of files one after the other, and a name that is known is not entered again.  So
what is found under a name is the first record of the first file that has one (`Holds.foldlM`), and
if some file has no module the first such file decides the error (`addFiles_eq_error_iff`).  First
means by the key: files are sorted before they are read, and with distinct keys the sorted list is
the same however the files were given.

The main result is `first_path_wins`.
-/

namespace Restage

open Text Java List Option

/-! ## Files -/

namespace SourceFile

/-- A file has a class of the given name, nested or not. -/
def Declares (f : SourceFile) (name : Text) : Prop := ∃ c ∈ f.document.classes, c.name = name

/-- The names of the classes are those that the analysis has recorded, whatever the module. -/
lemma exists_mem_classes_iff {d : Document} (module : Option Text) {name : Text} :
    (∃ c ∈ d.classes module, c.name = name) ↔
      let a := d.statements.foldl Analysis.step {}
      ∃ record ∈ a.finished ++ a.stack, record.name = name := by
  constructor
  · rintro ⟨c, hc, hname⟩
    obtain ⟨record, hrecord, rfl⟩ := mem_map.1 hc
    exact ⟨record, mem_mergeSort.1 hrecord, hname⟩
  · rintro ⟨record, hrecord, hname⟩
    exact ⟨_, mem_map_of_mem (mem_mergeSort.2 hrecord), hname⟩

instance (f : SourceFile) (name : Text) : Decidable (f.Declares name) :=
  decidable_of_iff _ (exists_mem_classes_iff none).symm

/-- What a file says about a name: its first class of that name and its module. -/
def firstRecord? (root : Option Path) (name : Text) (f : SourceFile) : Option (ClassInfo × Option Text) :=
  match f.module root with
  | .ok module => ((f.document.classes module).find? (·.name = name)).map (·, module)
  | .error _ => none

variable {root : Option Path} {f : SourceFile} {name : Text}

lemma firstRecord?_of_module {module : Option Text} (h : f.module root = .ok module) :
    f.firstRecord? root name = ((f.document.classes module).find? (·.name = name)).map (·, module) := by
  rw [firstRecord?, h]

lemma declares_iff (module : Option Text) :
    f.Declares name ↔ ∃ c ∈ f.document.classes module, c.name = name :=
  (exists_mem_classes_iff none).trans (exists_mem_classes_iff module).symm

lemma firstRecord?_eq_none_iff {module : Option Text} (h : f.module root = .ok module) :
    f.firstRecord? root name = none ↔ ¬ f.Declares name := by
  rw [firstRecord?_of_module h, declares_iff module]
  simp

end SourceFile

/-! ## Entering files -/

variable {c : ClassInfo} {f : SourceFile} {e : Path.Error} {files : List SourceFile}

namespace Project

variable (module : Option Text)

/-- What a project has under a name. -/
structure Holds (p : Project) (name : Text) (found : Option (ClassInfo × Option Text)) : Prop where
  classes : p.classes.get? name = found.map (·.1)
  modules : p.modules.get? name = found.bind (·.2)

variable {p p' : Project} {root : Option Path} {name : Text}
  {found : Option (ClassInfo × Option Text)}

lemma add_of_known (h : p.classes.has c.name = true) : p.add module c = p := by
  unfold add
  rw [if_pos h]

lemma classes_add (h : p.classes.has c.name = false) :
    (p.add module c).classes.get? name = if c.name = name then some c else p.classes.get? name := by
  unfold add
  rw [if_neg (by simp [h])]
  exact Table.get?_put ..

lemma modules_add (h : p.classes.has c.name = false) :
    (p.add module c).modules.get? name =
      if c.name = name then module.or (p.modules.get? name) else p.modules.get? name := by
  unfold add
  rw [if_neg (by simp [h])]
  cases module with
  | none => simp
  | some m => exact Table.get?_put ..

/-- **One class**: it is entered if nothing was there. -/
lemma Holds.add (h : p.Holds name found) (module : Option Text) (c : ClassInfo) :
    (p.add module c).Holds name (found.or (if c.name = name then some (c, module) else none)) := by
  by_cases hknown : p.classes.has c.name = true
  · have hname : c.name = name → found.isSome = true := by
      rintro rfl
      rwa [Table.has, h.classes, isSome_map] at hknown
    have hsame : found.or (if c.name = name then some (c, module) else none) = found := by
      cases found with
      | some entry => rfl
      | none => rw [none_or, if_neg fun heq => Bool.false_ne_true (hname heq)]
    rw [add_of_known module hknown, hsame]
    exact h
  · have hnew : p.classes.has c.name = false := Bool.eq_false_iff.2 hknown
    have hnone : c.name = name → found = none := by
      rintro rfl
      rwa [Table.has, h.classes, isSome_map, isSome_eq_false_iff, isNone_iff_eq_none] at hnew
    refine ⟨?_, ?_⟩
    · rw [classes_add module hnew, h.classes]
      split_ifs with hname
      · rw [hnone hname]
        rfl
      · rw [or_none]
    · rw [modules_add module hnew, h.modules]
      split_ifs with hname
      · rw [hnone hname]
        exact or_none
      · rw [or_none]

lemma Holds.addAll (h : p.Holds name found) (module : Option Text) (classes : List ClassInfo) :
    (classes.foldl (fun p c => p.add module c) p).Holds name
      (found.or ((classes.find? (·.name = name)).map (·, module))) := by
  induction classes generalizing p found with
  | nil => rwa [find?_nil, map_none, or_none]
  | cons c classes ih =>
    have hrest := ih (h.add module c)
    rw [Option.or_assoc] at hrest
    by_cases hname : c.name = name
    · rw [if_pos hname] at hrest
      simpa [hname] using hrest
    · rw [if_neg hname] at hrest
      simpa [hname] using hrest

lemma addFile_eq_ok_iff :
    addFile root p f = .ok p' ↔ ∃ module, f.module root = .ok module ∧
      p' = (f.document.classes module).foldl (fun p c => p.add module c) p := by
  rw [addFile]
  cases f.module root with
  | error e => simp [bind, Except.bind]
  | ok module => simp [bind, Except.bind, eq_comm]

lemma addFile_eq_error_iff : addFile root p f = .error e ↔ f.module root = .error e := by
  rw [addFile]
  cases f.module root <;> simp [bind, Except.bind]

/-- **One file**: its first class of a name is entered if nothing was there. -/
lemma Holds.addFile (h : p.Holds name found) (hadd : Project.addFile root p f = .ok p') :
    p'.Holds name (found.or (f.firstRecord? root name)) := by
  obtain ⟨module, hmodule, rfl⟩ := addFile_eq_ok_iff.1 hadd
  rw [SourceFile.firstRecord?_of_module hmodule]
  exact h.addAll module _

/-- **All files**: under a name stands what the first file says that says anything. -/
lemma Holds.foldlM (h : p.Holds name found) (hfold : files.foldlM (Project.addFile root) p = .ok p') :
    p'.Holds name (found.or (files.findSome? (·.firstRecord? root name))) := by
  induction files generalizing p found with
  | nil =>
    cases hfold
    rwa [findSome?_nil, or_none]
  | cons f files ih =>
    obtain ⟨next, hfirst, hfold⟩ := foldlM_cons_eq_ok.1 hfold
    have hrest := ih (h.addFile hfirst) hfold
    cases hentry : f.firstRecord? root name with
    | none => simpa [hentry] using hrest
    | some entry => simpa [hentry] using hrest

lemma exists_foldlM_iff : (∃ p', files.foldlM (Project.addFile root) p = .ok p') ↔
    ∀ f ∈ files, ∃ module, f.module root = .ok module := by
  induction files generalizing p with
  | nil => exact iff_of_true ⟨p, rfl⟩ (forall_mem_nil _)
  | cons f files ih =>
    rw [forall_mem_cons]
    constructor
    · rintro ⟨p', hfold⟩
      obtain ⟨next, hfirst, hfold⟩ := foldlM_cons_eq_ok.1 hfold
      obtain ⟨module, hmodule, -⟩ := addFile_eq_ok_iff.1 hfirst
      exact ⟨⟨module, hmodule⟩, ih.1 ⟨p', hfold⟩⟩
    · rintro ⟨⟨module, hmodule⟩, hfiles⟩
      obtain ⟨p', hfold⟩ := ih.2 hfiles
      exact ⟨p', foldlM_cons_eq_ok.2 ⟨_, addFile_eq_ok_iff.2 ⟨module, hmodule, rfl⟩, hfold⟩⟩

/-- **The first file without a module** decides the error. -/
lemma addFiles_eq_error_iff :
    files.foldlM (addFile root) p = .error e ↔ ∃ before f after, files = before ++ f :: after ∧
      f.module root = .error e ∧ ∀ g ∈ before, ∃ module, g.module root = .ok module := by
  rw [foldlM_eq_error_iff]
  constructor
  · rintro ⟨before, f, after, p', hsplit, hbefore, hf⟩
    exact ⟨before, f, after, hsplit, addFile_eq_error_iff.1 hf, exists_foldlM_iff.1 ⟨p', hbefore⟩⟩
  · rintro ⟨before, f, after, hsplit, hf, hbefore⟩
    obtain ⟨p', hp'⟩ := exists_foldlM_iff.2 hbefore
    exact ⟨before, f, after, p', hsplit, hp', addFile_eq_error_iff.2 hf⟩

end Project

/-! ## Sorted files -/

/-- The files in the order in which they are read. -/
def sortedFiles (files : List SourceFile) : List SourceFile :=
  files.mergeSort fun f g => !precedes g.key f.key

lemma mem_sortedFiles : f ∈ sortedFiles files ↔ f ∈ files :=
  mem_mergeSort

lemma mem_before_iff {before after : List SourceFile} {g : SourceFile}
    (hkeys : (files.map SourceFile.key).Nodup) (hsorted : sortedFiles files = before ++ f :: after)
    (hg : g ∈ files) : g ∈ before ↔ precedes g.key f.key = true := by
  have hpairwise := pairwise_sorted SourceFile.key files
  have hdistinct : ((sortedFiles files).map SourceFile.key).Nodup :=
    ((mergeSort_perm files _).map _).nodup_iff.2 hkeys
  rw [show (files.mergeSort _) = before ++ f :: after from hsorted, pairwise_append,
    pairwise_cons] at hpairwise
  rw [hsorted, map_append, nodup_append] at hdistinct
  constructor
  · intro hbefore
    by_contra hnot
    refine hdistinct.2.2 _ (mem_map_of_mem hbefore) _ (mem_map_of_mem (mem_cons_self ..)) ?_
    exact eq_of_not_precedes (Bool.eq_false_iff.2 hnot) (hpairwise.2.2 g hbefore f (by simp))
  · intro hprecedes
    have hmem : g ∈ before ++ f :: after := hsorted ▸ mem_sortedFiles.2 hg
    rcases mem_append.1 hmem with hbefore | hrest
    · exact hbefore
    · have hfalse : precedes g.key f.key = false := by
        rcases mem_cons.1 hrest with rfl | hafter
        · exact precedes_eq_false_iff.2 (le_refl _)
        · exact hpairwise.2.1.1 g hafter
      rw [hfalse] at hprecedes
      cases hprecedes

namespace Project

/-- The file is the first one, by the keys, with a class of the given name. -/
structure FirstDeclaring (files : List SourceFile) (name : Text) (f : SourceFile) : Prop where
  mem : f ∈ files
  declares : f.Declares name
  first : ∀ g ∈ files, g.Declares name → g = f ∨ precedes f.key g.key = true

variable {files : List SourceFile} {root : Option Path} {p : Project} {name : Text}

lemma holds_of_ofFiles (h : ofFiles files root = .ok p) (name : Text) :
    p.Holds name ((sortedFiles files).findSome? (·.firstRecord? root name)) := by
  have hempty : ({} : Project).Holds name none := ⟨rfl, rfl⟩
  exact hempty.foldlM h

/-- **What is found under a name** that some file declares. -/
lemma firstDeclaring_of_ofFiles (hkeys : (files.map SourceFile.key).Nodup)
    (h : ofFiles files root = .ok p) (hname : ∃ g ∈ files, g.Declares name) :
    ∃ f module c, FirstDeclaring files name f ∧ f.module root = .ok module ∧
      (f.document.classes module).find? (·.name = name) = some c ∧
      p.classes.get? name = some c ∧ p.modules.get? name = module := by
  have hmodules : ∀ g ∈ files, ∃ module, g.module root = .ok module := fun g hg =>
    exists_foldlM_iff.1 ⟨_, h⟩ g (mem_sortedFiles.2 hg)
  have hsilent : ∀ g ∈ files, g.firstRecord? root name = none ↔ ¬ g.Declares name := by
    intro g hg
    obtain ⟨module, hmodule⟩ := hmodules g hg
    exact SourceFile.firstRecord?_eq_none_iff hmodule
  have hholds := holds_of_ofFiles h name
  cases hfind : (sortedFiles files).findSome? (·.firstRecord? root name) with
  | none =>
    obtain ⟨g, hg, hdeclares⟩ := hname
    rw [findSome?_eq_none_iff] at hfind
    exact absurd hdeclares ((hsilent g hg).1 (hfind g (mem_sortedFiles.2 hg)))
  | some entry =>
    rw [hfind] at hholds
    obtain ⟨before, f, after, hsplit, hentry, hbefore⟩ := findSome?_eq_some_iff.1 hfind
    have hf : f ∈ files := mem_sortedFiles.1 (hsplit ▸ by simp)
    have hdeclares : f.Declares name := by
      by_contra hnot
      rw [(hsilent f hf).2 hnot] at hentry
      cases hentry
    obtain ⟨module, hmodule⟩ := hmodules f hf
    rw [SourceFile.firstRecord?_of_module hmodule] at hentry
    obtain ⟨c, hc, rfl⟩ := map_eq_some_iff.1 hentry
    refine ⟨f, module, c, ⟨hf, hdeclares, ?_⟩, hmodule, hc, hholds.classes, hholds.modules⟩
    intro g hg hgdeclares
    have hnotBefore : g ∉ before := fun hmem => (hsilent g hg).1 (hbefore g hmem) hgdeclares
    rw [mem_before_iff hkeys hsplit hg, Bool.not_eq_true] at hnotBefore
    by_cases hprecedes : precedes f.key g.key = true
    · exact .inr hprecedes
    · refine .inl (inj_on_of_nodup_map hkeys hg hf ?_)
      exact eq_of_not_precedes hnotBefore (Bool.eq_false_iff.2 hprecedes)

/-- **The order of the files does not matter, and the first path wins.**  Files with distinct paths
make the same project, or the same error, in whatever order they are given.  The error is that of
the first file without a module.  In a project, the class of a name is the first one of that name in
the first file that declares it, with the module of that file; nothing is found under other
names. -/
theorem first_path_wins {files files' : List SourceFile} (root : Option Path)
    (hkeys : (files.map SourceFile.key).Nodup) (hperm : files.Perm files') :
    ofFiles files' root = ofFiles files root ∧
    (∀ e, ofFiles files root = .error e ↔ ∃ f ∈ files, f.module root = .error e ∧
      ∀ g ∈ files, precedes g.key f.key = true → ∃ module, g.module root = .ok module) ∧
    ∀ p, ofFiles files root = .ok p → ∀ name,
      ((∃ g ∈ files, g.Declares name) → ∃ f module c, FirstDeclaring files name f ∧
        f.module root = .ok module ∧ (f.document.classes module).find? (·.name = name) = some c ∧
        p.classes.get? name = some c ∧ p.modules.get? name = module) ∧
      ((∀ g ∈ files, ¬ g.Declares name) →
        p.classes.get? name = none ∧ p.modules.get? name = none) := by
  refine ⟨?_, ?_, ?_⟩
  · rw [ofFiles, ofFiles, sorted_eq_of_perm SourceFile.key hperm hkeys]
  · intro e
    have herror : ofFiles files root = .error e ↔ ∃ before f after,
        sortedFiles files = before ++ f :: after ∧ f.module root = .error e ∧
        ∀ g ∈ before, ∃ module, g.module root = .ok module :=
      addFiles_eq_error_iff
    refine herror.trans ⟨?_, ?_⟩
    · rintro ⟨before, f, after, hsplit, hf, hbefore⟩
      refine ⟨f, mem_sortedFiles.1 (hsplit ▸ by simp), hf, fun g hg hprecedes => hbefore g ?_⟩
      exact (mem_before_iff hkeys hsplit hg).2 hprecedes
    · rintro ⟨f, hmem, hf, hbefore⟩
      obtain ⟨before, after, hsplit⟩ := List.append_of_mem (mem_sortedFiles.2 hmem)
      refine ⟨before, f, after, hsplit, hf, fun g hg => ?_⟩
      have hgfiles : g ∈ files := mem_sortedFiles.1 (hsplit ▸ List.mem_append_left _ hg)
      exact hbefore g hgfiles ((mem_before_iff hkeys hsplit hgfiles).1 hg)
  · intro p hp name
    refine ⟨firstDeclaring_of_ofFiles hkeys hp, fun hnone => ?_⟩
    have hfind : (sortedFiles files).findSome? (·.firstRecord? root name) = none := by
      rw [List.findSome?_eq_none_iff]
      intro f hf
      have hfiles := mem_sortedFiles.1 hf
      obtain ⟨module, hmodule⟩ := exists_foldlM_iff.1 ⟨_, hp⟩ f hf
      exact (SourceFile.firstRecord?_eq_none_iff hmodule).2 (hnone f hfiles)
    have hholds := holds_of_ofFiles hp name
    rw [hfind] at hholds
    exact ⟨hholds.classes, hholds.modules⟩

/-- Two files with a class of one name, nested in the one that is read first. -/
theorem first_path_wins_nested :
    let x : SourceFile := ⟨some (.parse "b/X.java"), .ofText "class A \x7b\nint i;\n\x7d\n"⟩
    let y : SourceFile := ⟨some (.parse "a/Y.java"), .ofText "class B \x7b\nclass A \x7b\n\x7d\n\x7d\n"⟩
    ofFiles [y, x] (some .current) = ofFiles [x, y] (some .current) ∧
      ∃ p, ofFiles [x, y] (some .current) = .ok p ∧ p.modules.get? "A" = some "a/Y".toList := by
  intro x y
  have hkeys : ([x, y].map SourceFile.key).Nodup := by decide
  obtain ⟨hsame, herror, hfound⟩ := first_path_wins (some .current) hkeys (List.Perm.swap y x [])
  refine ⟨hsame, ?_⟩
  cases hp : ofFiles [x, y] (some .current) with
  | error e =>
    obtain ⟨f, hf, hmodule, -⟩ := (herror e).1 hp
    rw [List.mem_cons, List.mem_singleton] at hf
    rcases hf with rfl | rfl <;> cases hmodule
  | ok p =>
    have hx : x.Declares "A" := by decide +kernel
    have hy : y.Declares "A" := by decide +kernel
    obtain ⟨f, module, c, hfirst, hmodule, -, -, hget⟩ := (hfound p hp "A").1 ⟨x, by simp, hx⟩
    have hfy : f = y := by
      rcases hfirst.first y (by simp) hy with h | h
      · exact h.symm
      · have hmem := hfirst.mem
        rw [List.mem_cons, List.mem_singleton] at hmem
        rcases hmem with rfl | rfl
        · exact absurd h (by decide)
        · rfl
    rw [hfy] at hmodule
    have hname : y.module (some .current) = .ok (some "a/Y".toList) := by rfl
    rw [hname] at hmodule
    cases hmodule
    exact ⟨p, rfl, hget⟩

end Project

end Restage
