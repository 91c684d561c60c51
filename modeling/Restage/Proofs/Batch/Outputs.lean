import Restage.Batch.Run
import Restage.Proofs.Path.Names

/-!
# Where the outputs of a batch go

The output of a source file has the place of the file below the input, now below the output root,
and another suffix.  So the suffix is lost on the way, and it is all that is lost: two source files
share an output exactly if they stand in one directory and have the same stem
(`outputFor_discovered`, `outputs_shared_iff`).

Which files are source files is decided by the suffix in lower case.  A suffix with letters has
several spellings, and settings may have several suffixes.
-/

namespace Restage

open Text List

/-! ## Changing a suffix -/

namespace Path

variable {suffix : Text} {p q : Path}

/-- A suffix that a name can be given: none, or a dot and more. -/
def CanEnd (suffix : Text) : Prop :=
  '/' ∉ suffix ∧ (suffix = [] ∨ startsWith "." suffix = true) ∧ suffix ≠ ".".toList

lemma withSuffix_eq_ok_iff :
    p.withSuffix suffix = .ok q ↔
      CanEnd suffix ∧ p.name ≠ [] ∧ q = p.withLast (p.stem ++ suffix) := by
  have hguard : (suffix.contains '/' || (!suffix.isEmpty && !startsWith "." suffix) || suffix == ".") =
      true ↔ ¬ CanEnd suffix := by
    rw [CanEnd, Bool.or_eq_true, Bool.or_eq_true, Bool.and_eq_true, contains_iff_mem, beq_iff_eq,
      Bool.not_eq_true', Bool.not_eq_true', isEmpty_eq_false_iff, ← Bool.not_eq_true]
    tauto
  rw [withSuffix]
  split_ifs with hinvalid hname
  · simp [hguard.1 hinvalid]
  · simp [isEmpty_iff.1 hname]
  · have hname : p.name ≠ [] := mt isEmpty_iff.2 hname
    have hvalid : CanEnd suffix := not_not.1 (mt hguard.2 hinvalid)
    constructor
    · rintro ⟨⟩
      exact ⟨hvalid, hname, rfl⟩
    · rintro ⟨-, -, rfl⟩
      rfl

lemma stem_eq_nil_iff : p.stem = [] ↔ p.name = [] := by
  constructor
  · intro h
    have hname := p.stem_append_suffix
    rw [h] at hname
    rcases suffixOf_cases p.name with hnone | ⟨stem, ending, hsplit, hne, -, -, hsuffix⟩
    · rw [← hname]
      exact hnone
    · -- The suffix is all of the name, and yet there is something before its dot.
      have hlength := congrArg length (hname.symm.trans hsuffix)
      rw [hsplit, length_append] at hlength
      exact absurd (length_eq_zero_iff.1 (by omega)) hne
  · intro h
    rw [stem, h]
    exact take_nil

lemma eq_of_parent_of_name (hp : p.parts ≠ []) (hq : q.parts ≠ []) (hparent : p.parent = q.parent)
    (hname : p.name = q.name) : p = q := by
  obtain ⟨root, parts⟩ := p
  obtain ⟨root', parts'⟩ := q
  cases parts using reverseRecOn with
  | nil => exact absurd rfl hp
  | append_singleton parts name =>
    cases parts' using reverseRecOn with
    | nil => exact absurd rfl hq
    | append_singleton parts' name' =>
      simp only [parent, dropLast_concat, Path.mk.injEq] at hparent
      simp only [Path.name, getLast?_concat, Option.getD_some] at hname
      rw [hparent.1, hparent.2, hname]

lemma suffixOf_cons
    (h : suffix = [] ∨ ∃ ending, suffix = '.' :: ending ∧ ending ≠ [] ∧ '.' ∉ ending) :
    suffixOf ('A' :: suffix) = suffix := by
  rcases h with rfl | ⟨ending, rfl, hne, hdots⟩
  · rfl
  · have hbefore : beforeLast? '.' ('A' :: '.' :: ending) = some ['A'] :=
      beforeLast?_append_cons hdots ['A']
    obtain ⟨c, rest, rfl⟩ := exists_cons_of_ne_nil hne
    rw [suffixOf, hbefore]
    exact if_pos (by simp)

end Path

/-! ## Source files below a directory -/

lemma FileTree.mem_filesBelow_iff {tree : FileTree} {input path : Path} :
    path ∈ tree.filesBelow input ↔ ∃ p below content, tree.follow input = .ok p ∧ below ≠ [] ∧
      (p ++ below, Entry.file content) ∈ tree.entries ∧
      path = { input with parts := input.parts ++ below } := by
  rw [filesBelow]
  cases hfollow : tree.follow input with
  | error cause => simp
  | ok p =>
    dsimp only
    rw [mem_mergeSort, mem_filterMap]
    constructor
    · rintro ⟨⟨place, entry⟩, hmem, hpath⟩
      cases entry with
      | directory => cases hpath
      | file content =>
        dsimp only at hpath
        split_ifs at hpath with hbelow
        obtain ⟨hstart, hne⟩ := hbelow
        obtain ⟨below, rfl⟩ := isPrefixOf_iff_prefix.1 hstart
        cases hpath
        rw [drop_left]
        refine ⟨p, below, content, rfl, ?_, hmem, rfl⟩
        rintro rfl
        exact hne (append_nil p).symm
    · rintro ⟨_, below, content, ⟨⟩, hne, hmem, rfl⟩
      refine ⟨_, hmem, ?_⟩
      rw [if_pos ⟨ isPrefixOf_iff_prefix.2 (prefix_append p below), by simpa using hne⟩, drop_left]

namespace Batch.Plan

variable {plan : Plan} {tree : FileTree} {input output a b : Path}

/-- The suffixes that make a file a source file, as they may be spelled. -/
def Accepts (plan : Plan) (suffix : Text) : Prop :=
  (suffix = [] ∨ ∃ ending, suffix = '.' :: ending ∧ ending ≠ [] ∧ '.' ∉ ending) ∧
    lower suffix ∈ plan.settings.sourceExtensions.map lower

lemma mem_discover_iff (h : tree.isDirectory input = true) :
    a ∈ plan.discover tree input ↔ a ∈ tree.filesBelow input ∧ plan.isSource input a = true := by
  rw [discover, if_neg, mem_filter]
  have hlook : tree.look input = some .directory := by simpa [FileTree.isDirectory] using h
  rw [FileTree.isFile, hlook]
  exact Bool.false_ne_true

lemma accepts_suffix (h : tree.isDirectory input = true) (ha : a ∈ plan.discover tree input) :
    plan.Accepts a.suffix := by
  have hsource := ((mem_discover_iff h).1 ha).2
  rw [isSource, Bool.and_eq_true, contains_iff_mem] at hsource
  refine ⟨?_, hsource.1⟩
  rcases Path.suffixOf_cases a.name with hnone | ⟨stem, ending, -, -, hne, hdots, hsuffix⟩
  · exact .inl hnone
  · exact .inr ⟨ending, hsuffix, hne, hdots⟩

/-- **The output of a source file**: below the output root it has the directory and the stem of the
file. -/
lemma outputFor_discovered (output : Path) (h : tree.isDirectory input = true)
    (ha : a ∈ plan.discover tree input) : ∃ directories,
      a.parent = ⟨input.root, input.parts ++ directories⟩ ∧ a.parts ≠ [] ∧ ∀ t,
      plan.outputFor a input output = .ok t ↔ Path.CanEnd plan.settings.outputExtension ∧ a.stem ≠ [] ∧
        t = ⟨output.root, output.parts ++ directories ++ [a.stem ++ plan.settings.outputExtension]⟩ := by
  obtain ⟨p, below, content, -, hne, -, rfl⟩ := FileTree.mem_filesBelow_iff.1 ((mem_discover_iff h).1 ha).1
  obtain ⟨directories, name, rfl⟩ : ∃ directories name, below = directories ++ [name] :=
    ⟨_, _, (dropLast_append_getLast hne).symm⟩
  have hlast : ∀ (root : Text) (above : List Text),
      (⟨root, above ++ (directories ++ [name])⟩ : Path).name = name := by
    intro root above
    rw [Path.name, ← append_assoc, getLast?_concat]
    rfl
  have hbelow : plan.outputFor { input with parts := input.parts ++ (directories ++ [name]) } input output =
      Path.withSuffix ⟨output.root, output.parts ++ (directories ++ [name])⟩
        plan.settings.outputExtension := by
    rw [outputFor, Path.relativeTo, if_pos ⟨rfl, isPrefixOf_iff_prefix.2 (prefix_append _ _)⟩]
    rw [drop_left]
    rfl
  refine ⟨directories, ?_, by simp, fun t => ?_⟩
  · rw [Path.parent, ← append_assoc, dropLast_concat]
  · have hstem : ∀ root above, (⟨root, above ++ (directories ++ [name])⟩ : Path).stem =
        (⟨input.root, input.parts ++ (directories ++ [name])⟩ : Path).stem := by
      intro root above
      rw [Path.stem, Path.stem, Path.suffix, Path.suffix, hlast, hlast]
    have hname : (⟨output.root, output.parts ++ (directories ++ [name])⟩ : Path).name ≠ [] ↔
        (⟨input.root, input.parts ++ (directories ++ [name])⟩ : Path).stem ≠ [] := by
      rw [Ne, Ne, Path.stem_eq_nil_iff, hlast, hlast]
    have hdirectories :
        (output.parts ++ (directories ++ [name])).dropLast = output.parts ++ directories := by
      rw [← append_assoc, dropLast_concat]
    rw [hbelow, Path.withSuffix_eq_ok_iff, hname, Path.withLast, hstem output.root output.parts,
      hdirectories]

/-- Two source files have the same output. -/
def SharesOutput (plan : Plan) (input output a b : Path) : Prop :=
  ∃ t, plan.outputFor a input output = .ok t ∧ plan.outputFor b input output = .ok t

lemma sharesOutput_iff (h : tree.isDirectory input = true) (ha : a ∈ plan.discover tree input)
    (hb : b ∈ plan.discover tree input) :
    plan.SharesOutput input output a b ↔ Path.CanEnd plan.settings.outputExtension ∧ a.stem ≠ [] ∧
      a.parent = b.parent ∧ a.stem = b.stem := by
  obtain ⟨directories, hparent, -, houtput⟩ := outputFor_discovered output h ha
  obtain ⟨directories', hparent', -, houtput'⟩ := outputFor_discovered output h hb
  rw [hparent, hparent']
  constructor
  · rintro ⟨t, hat, hbt⟩
    obtain ⟨hend, hstem, rfl⟩ := (houtput t).1 hat
    obtain ⟨-, -, hsame⟩ := (houtput' _).1 hbt
    rw [Path.mk.injEq, append_assoc, append_assoc, append_cancel_left_eq] at hsame
    obtain ⟨hdirectories, hname⟩ := append_inj' hsame.2 rfl
    rw [cons.injEq, append_cancel_right_eq] at hname
    exact ⟨hend, hstem, by rw [hdirectories], hname.1⟩
  · rintro ⟨hend, hstem, hdirectories, hsame⟩
    rw [Path.mk.injEq, append_cancel_left_eq] at hdirectories
    refine ⟨_, (houtput _).2 ⟨hend, hstem, rfl⟩, (houtput' _).2 ⟨hend, hsame ▸ hstem, ?_⟩⟩
    rw [hdirectories.2, hsame]

lemma eq_of_sharesOutput (h : tree.isDirectory input = true) (ha : a ∈ plan.discover tree input)
    (hb : b ∈ plan.discover tree input) (hshares : plan.SharesOutput input output a b)
    (hsuffix : a.suffix = b.suffix) : a = b := by
  obtain ⟨-, -, hne, -⟩ := outputFor_discovered output h ha
  obtain ⟨-, -, hne', -⟩ := outputFor_discovered output h hb
  obtain ⟨-, -, hparent, hstem⟩ := (sharesOutput_iff h ha hb).1 hshares
  refine Path.eq_of_parent_of_name hne hne' hparent ?_
  rw [← a.stem_append_suffix, ← b.stem_append_suffix, hstem, hsuffix]

/-- A directory with two source files whose names differ in the suffix. -/
def twoSpellings (suffix suffix' : Text) : FileTree :=
  ⟨[(["in"], .directory), (["in", 'A' :: suffix], .file []), (["in", 'A' :: suffix'], .file [])]⟩

lemma mem_discover_twoSpellings {suffix suffix' found : Text} (h : plan.Accepts found)
    (hfound : found = suffix ∨ found = suffix') :
    (⟨[], ["in", 'A' :: found]⟩ : Path) ∈
      plan.discover (twoSpellings suffix suffix') (Path.parse "in") := by
  rw [mem_discover_iff rfl, FileTree.mem_filesBelow_iff]
  refine ⟨⟨["in"], ['A' :: found], [], rfl, cons_ne_nil _ _, ?_, rfl⟩, ?_⟩
  · rcases hfound with rfl | rfl <;> simp [twoSpellings]
  · have hsuffix : (⟨[], ["in", 'A' :: found]⟩ : Path).suffix = found := Path.suffixOf_cons h.1
    rw [isSource, hsuffix, Bool.and_eq_true, contains_iff_mem]
    exact ⟨h.2, rfl⟩

/-- **Which source files share an output.**  Below one input directory, two source files have the
same output exactly if they stand in the same directory and have the same stem; if they are two
files, they differ in the suffix, and both suffixes are accepted.  Whenever the settings accept two
suffixes, which may be one in two spellings, there is a directory with two source files that share
their output. -/
theorem outputs_shared_iff (plan : Plan) :
    (∀ tree input output a b, tree.isDirectory input = true → a ∈ plan.discover tree input →
      b ∈ plan.discover tree input →
      (plan.SharesOutput input output a b ↔ Path.CanEnd plan.settings.outputExtension ∧ a.stem ≠ [] ∧
        a.parent = b.parent ∧ a.stem = b.stem) ∧
      (plan.SharesOutput input output a b → a ≠ b →
        a.suffix ≠ b.suffix ∧ plan.Accepts a.suffix ∧ plan.Accepts b.suffix)) ∧
    (Path.CanEnd plan.settings.outputExtension → ∀ suffix suffix', plan.Accepts suffix →
      plan.Accepts suffix' → suffix ≠ suffix' → ∃ tree input a b, tree.isDirectory input = true ∧
        a ∈ plan.discover tree input ∧ b ∈ plan.discover tree input ∧ a ≠ b ∧ a.suffix = suffix ∧
        b.suffix = suffix' ∧ ∀ output, plan.SharesOutput input output a b) := by
  constructor
  · intro tree input output a b h ha hb
    refine ⟨sharesOutput_iff h ha hb, fun hshares hne => ⟨?_, accepts_suffix h ha, accepts_suffix h hb⟩⟩
    exact fun hsuffix => hne (eq_of_sharesOutput h ha hb hshares hsuffix)
  · intro hend suffix suffix' h h' hne
    have hsuffix : (⟨[], ["in", 'A' :: suffix]⟩ : Path).suffix = suffix := Path.suffixOf_cons h.1
    have hsuffix' : (⟨[], ["in", 'A' :: suffix']⟩ : Path).suffix = suffix' := Path.suffixOf_cons h'.1
    have ha := mem_discover_twoSpellings h (.inl rfl : suffix = suffix ∨ suffix = suffix')
    have hb := mem_discover_twoSpellings h' (.inr rfl : suffix' = suffix ∨ suffix' = suffix')
    refine ⟨_, _, _, _, rfl, ha, hb, ?_, hsuffix, hsuffix', fun output => ?_⟩
    · intro heq
      rw [heq, hsuffix'] at hsuffix
      exact hne hsuffix.symm
    · have hstem : ∀ found, (⟨[], ["in", 'A' :: found]⟩ : Path).suffix = found →
          (⟨[], ["in", 'A' :: found]⟩ : Path).stem = ['A'] := by
        intro found hfound
        have hname := (⟨[], ["in", 'A' :: found]⟩ : Path).stem_append_suffix
        rw [hfound] at hname
        exact List.append_cancel_right (hname : _ = ['A'] ++ found)
      rw [sharesOutput_iff rfl ha hb, hstem _ hsuffix, hstem _ hsuffix']
      exact ⟨hend, List.cons_ne_nil _ _, rfl, rfl⟩

/-- **Two files, one output**, with the settings as they come: the suffix may be spelled in
capitals. -/
theorem output_overwritten :
    let plan : Plan := { settings := {} }
    let tree : FileTree :=
      ⟨[(["in"], .directory), (["in", "A.java"], .file []), (["in", "A.JAVA"], .file [])]⟩
    tree.isDirectory (.parse "in") = true ∧
      Path.parse "in/A.java" ∈ plan.discover tree (.parse "in") ∧
      Path.parse "in/A.JAVA" ∈ plan.discover tree (.parse "in") ∧
      plan.outputFor (.parse "in/A.java") (.parse "in") (.parse "out") = .ok (.parse "out/A.ts") ∧
      plan.outputFor (.parse "in/A.JAVA") (.parse "in") (.parse "out") = .ok (.parse "out/A.ts") := by
  have hjava : ({ settings := {} } : Plan).Accepts ".java" :=
    ⟨.inr ⟨"java".toList, rfl, by decide, by decide⟩, by decide +kernel⟩
  have hcapitals : ({ settings := {} } : Plan).Accepts ".JAVA" :=
    ⟨.inr ⟨"JAVA".toList, rfl, by decide, by decide⟩, by decide +kernel⟩
  exact ⟨rfl, mem_discover_twoSpellings hjava (.inl rfl), mem_discover_twoSpellings hcapitals (.inr rfl),
    rfl, rfl⟩

end Batch.Plan

end Restage
