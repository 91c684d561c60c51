import Restage.Proofs.Batch.Outputs
import Restage.Proofs.FileTree.Writing

/-!
# The output that has been written

Beside the output of a file, a batch may write two more files, whose names are that of the output
with another ending.  They never take its place (`Path.name_parse_ne`), even where the names of
paths are not those that a written path can have.  So an output that has been written can be read
(`read_of_writeOutput`).
-/

namespace Restage

open Text List

/-! ## Names with an ending -/

variable {ending : Text} {p : Path}

namespace Path

lemma exists_name_parse_append (t : Text) (hslash : '/' ∉ ending) (hlength : 1 < ending.length) :
    ∃ last, (parse (t ++ ending)).name = last ++ ending ∧ '/' ∉ last ∧
      ∀ s, s <:+ t → '/' ∉ s → s <:+ last := by
  have hname : ∀ before last, Text.parts '/' (t ++ ending) = before ++ [last ++ ending] →
      (parse (t ++ ending)).name = last ++ ending := by
    intro before last hparts
    have hkept : [last ++ ending].filter (fun p => !p.isEmpty && p ≠ ".".toList) = [last ++ ending] := by
      rw [filter_eq_self, forall_mem_singleton]
      refine Bool.and_eq_true_iff.2 ⟨?_, decide_eq_true fun heq => ?_⟩
      · cases ending <;> simp at hlength ⊢
      · have := congrArg length heq
        simp at this
        omega
    rw [name, parse, hparts, filter_append, hkept]
    simp
  by_cases hmem : '/' ∈ t
  · obtain ⟨before, last, rfl, hlast⟩ := exists_eq_append_cons_notMem hmem
    have hend : '/' ∉ last ++ ending := by simp [hlast, hslash]
    refine ⟨last, hname (Text.parts '/' before) last ?_, hlast, fun s => suffix_of_suffix_append_cons⟩
    rw [append_assoc, cons_append, parts_append_sep, parts_of_notMem hend]
  · have hend : '/' ∉ t ++ ending := by simp [hmem, hslash]
    exact ⟨t, hname [] t (parts_of_notMem hend), hmem, fun s hs _ => hs⟩

lemma name_suffix_toText (hne : p.parts ≠ []) : p.name <:+ p.toText := by
  have htext : p.toText = p.root ++ join ['/'] p.parts := by
    rw [toText, if_neg (by simp [hne])]
    rfl
  have hjoin : p.name <:+ join ['/'] p.parts := by
    rw [name, getLast?_eq_some_getLast hne]
    generalize hlast : p.parts.getLast hne = last
    rw [← dropLast_append_getLast hne, hlast]
    by_cases hinit : p.parts.dropLast = []
    · rw [hinit]
      simp [join]
    · rw [join_concat hinit]
      exact (suffix_cons ..).trans (suffix_append ..)
  rw [htext]
  exact hjoin.trans (suffix_append ..)

/-- A suffix has no dot but its first. -/
lemma length_suffix_le (before : Text) (h : p.name = before ++ '.' :: ending) :
    p.suffix.length ≤ ending.length + 1 := by
  rw [suffix]
  rcases suffixOf_cases p.name with hnone | ⟨stem, after, hname, -, -, hdots, hsuffix⟩
  · simp [hnone]
  · have hafter : after <:+ before ++ '.' :: ending := by
      rw [← h, hname]
      exact (suffix_cons ..).trans (suffix_append ..)
    rw [hsuffix]
    exact Nat.succ_le_succ (suffix_of_suffix_append_cons hafter hdots).length_le

lemma name_parse_ne {t tag : Text} (ht : p.stem <:+ t) (htag : tag ≠ [])
    (hslash : '/' ∉ tag ++ '.' :: ending) : (parse (t ++ (tag ++ '.' :: ending))).name ≠ p.name := by
  have htag := length_pos_iff.2 htag
  have hlength : 1 < (tag ++ '.' :: ending).length := by
    rw [length_append, length_cons]
    omega
  obtain ⟨last, hname, hlast, hsuffix⟩ := exists_name_parse_append t hslash hlength
  intro heq
  rw [hname, ← p.stem_append_suffix] at heq
  have hstem : '/' ∉ p.stem := by
    intro hmem
    have hall : '/' ∈ last ++ (tag ++ '.' :: ending) := by
      rw [heq]
      exact mem_append_left _ hmem
    rcases mem_append.1 hall with h | h
    · exact hlast h
    · exact hslash h
  -- The stem has no slash, so it is no longer than what stands after the last one; but the suffix
  -- is no longer than the ending, so the stem has the tag as well.
  have hshort := (hsuffix p.stem ht hstem).length_le
  have hdots : p.suffix.length ≤ ending.length + 1 := by
    refine length_suffix_le (last ++ tag) ?_
    rw [← p.stem_append_suffix, ← heq, append_assoc]
  have hlengths := congrArg length heq
  rw [length_append, length_append, length_append, length_cons] at hlengths
  omega

end Path

/-! ## Writing an output -/

namespace Batch.Plan

open FileTree

variable {plan : Plan} {target : Path} {source : Source} {output : Conversion.Output} {t t' : FileTree}

/-- A file whose name is the stem of a path with a longer ending does not take the place of that
path. -/
lemma read_of_write_beside (tag ending : Text) {stem : Text} {content content' : List UInt8}
    (hne : target.parts ≠ []) (hstem : target.stem <:+ stem) (htag : tag ≠ [])
    (hslash : '/' ∉ tag ++ '.' :: ending) (hread : t.read target = .ok content)
    (h : (write (Path.parse (stem ++ (tag ++ '.' :: ending))) content').run t = (.ok (), t')) :
    t'.read target = .ok content :=
  read_write_other hne (Path.name_parse_ne hstem htag hslash) hread h

lemma read_of_writeOutput (hname : target.name ≠ [])
    (h : (plan.writeOutput target source output).run t = (.ok (), t')) :
    t'.read target = .ok (Utf8.encode output.code) := by
  have hne : target.parts ≠ [] := by
    rintro hnil
    rw [Path.name, hnil] at hname
    exact hname rfl
  obtain ⟨_, t₁, _, hafter⟩ := run_bind_eq_ok h
  obtain ⟨_, t₂, hwrite, hrest⟩ := run_bind_eq_ok hafter
  have hread := read_write hne hwrite
  by_cases hdiagnostics : plan.settings.writeDiagnostics = true
  · have hcan : Path.CanEnd [] := ⟨by simp, .inl rfl, by decide⟩
    have hsuffix := Path.withSuffix_eq_ok_iff.2 ⟨hcan, hname, rfl⟩
    rw [if_pos hdiagnostics, hsuffix, append_nil] at hrest
    have hstem : target.stem <:+ (target.withLast target.stem).toText := by
      have hlast : (target.withLast target.stem).name = target.stem := by
        simp [Path.withLast, Path.name]
      have hends := Path.name_suffix_toText (p := target.withLast target.stem) (by simp [Path.withLast])
      rwa [hlast] at hends
    obtain ⟨_, t₃, hsource, hskipped⟩ := run_bind_eq_ok hrest
    have hbeside := read_of_write_beside ".source" "txt" hne hstem (by simp) (by decide) hread hsource
    exact read_of_write_beside ".skipped" "txt" hne hstem (by simp) (by decide) hbeside hskipped
  · rw [if_neg hdiagnostics] at hrest
    cases hrest
    exact hread

end Batch.Plan

end Restage
