import Mathlib.Data.List.Infix
import Restage.FileTree
import Restage.Proofs.Runs

/-!
# Files that have been written

A change that succeeds is the changes that it consists of, one after the other (`run_bind_eq_ok`).
Writing a file puts it at one place, where no directory was, so all directories stay and every path
that could be followed still leads to the same place.  Hence a file that has been written is read
back (`read_write`), and it stays as long as files of other names are written (`read_write_other`).
-/

namespace Restage.FileTree

open List

variable {t t' : FileTree} {p q : Place} {path other : Path} {content content' : List UInt8}
  (entry : Entry) {names : List Text} {name : Text}

/-! ## Changes -/

lemma run_bind_eq_ok {α β : Type} {x : Change α} {f : α → Change β} {b : β}
    (h : (x >>= f).run t = (.ok b, t')) :
    ∃ a t₁, x.run t = (.ok a, t₁) ∧ (f a).run t₁ = (.ok b, t') := by
  have hrun : (x >>= f).run t = ExceptT.bindCont f (x.run t).1 (x.run t).2 := rfl
  cases hx : x.run t with
  | mk result t₁ =>
    rw [hrun, hx] at h
    cases result with
    | error e => cases h
    | ok a => exact ⟨a, t₁, rfl, h⟩

/-! ## Places -/

/-- A place that is a directory in every tree. -/
def isFixed (p : Place) : Bool := isAbove p || p == rootPlace

lemma at?_of_isFixed (h : isFixed p = true) : t.at? p = some .directory := if_pos h

lemma at?_of_not_isFixed (h : isFixed p ≠ true) :
    t.at? p = (t.entries.find? (·.1 = p)).map (·.2) := if_neg h

lemma at?_put_of_ne (h : q ≠ p) : (t.put p entry).at? q = t.at? q := by
  by_cases hfixed : isFixed q = true
  · rw [at?_of_isFixed hfixed, at?_of_isFixed hfixed]
  · have hkept : (t.entries.filter (·.1 ≠ p)).find? (·.1 = q) = t.entries.find? (·.1 = q) := by
      rw [find?_filter]
      congr 1
      funext e
      by_cases heq : e.1 = q
      · simp [heq, h]
      · simp [heq]
    have hadded : [(p, entry)].find? (·.1 = q) = none := by simp [h.symm]
    rw [at?_of_not_isFixed hfixed, at?_of_not_isFixed hfixed, put, find?_append, hkept, hadded,
      Option.or_none]

lemma at?_put_self (h : isFixed p ≠ true) : (t.put p entry).at? p = some entry := by
  have hremoved : (t.entries.filter (·.1 ≠ p)).find? (·.1 = p) = none := by
    simp
  rw [at?_of_not_isFixed h, put, find?_append, hremoved]
  simp

/-! ## Following a path -/

lemma go_eq_ok_iff :
    t.go p name = .ok q ↔ t.at? p = some .directory ∧ q = inside p name := by
  rw [go]
  cases hat : t.at? p with
  | none => simp
  | some entry =>
    cases entry with
    | file content => simp
    | directory => simp [eq_comm]

lemma foldlM_go_cons_eq_ok_iff :
    (name :: names).foldlM t.go p = .ok q ↔
      t.at? p = some .directory ∧ names.foldlM t.go (inside p name) = .ok q := by
  simp only [foldlM_cons_eq_ok, go_eq_ok_iff, and_assoc, exists_and_left, exists_eq_left]

lemma follow_eq_ok_iff (hne : path.parts ≠ []) :
    t.follow path = .ok q ↔
      ∃ p, t.follow path.parent = .ok p ∧ t.at? p = some .directory ∧ q = inside p path.name := by
  have hparts : path.parts = path.parent.parts ++ [path.name] := by
    rw [Path.name, getLast?_eq_some_getLast hne]
    exact (dropLast_append_getLast hne).symm
  have hfollow : t.follow path = (t.follow path.parent).bind fun p => t.go p path.name := by
    rw [follow, hparts, foldlM_append]
    exact bind_congr fun p => foldlM_cons.trans (bind_pure _)
  rw [hfollow]
  cases t.follow path.parent with
  | error cause => simp [Except.bind]
  | ok p => simp [Except.bind, go_eq_ok_iff]

/-- Every directory of the first tree is one of the second. -/
def KeepsDirectories (t t' : FileTree) : Prop :=
  ∀ p, t.at? p = some .directory → t'.at? p = some .directory

lemma foldlM_go_of_keepsDirectories (h : KeepsDirectories t t') (hgo : names.foldlM t.go p = .ok q) : names.foldlM t'.go p = .ok q := by
  induction names generalizing p with
  | nil => exact hgo
  | cons name names ih =>
    obtain ⟨hat, hrest⟩ := foldlM_go_cons_eq_ok_iff.1 hgo
    exact foldlM_go_cons_eq_ok_iff.2 ⟨h p hat, ih hrest⟩

lemma follow_of_keepsDirectories (h : KeepsDirectories t t') (hfollow : t.follow path = .ok p) :
    t'.follow path = .ok p := foldlM_go_of_keepsDirectories h hfollow

/-- Everything above a place is a directory. -/
def Enclosed (t : FileTree) (p : Place) : Prop := ∀ q, q <+: p → q ≠ p → t.at? q = some .directory

lemma Enclosed.inside (h : Enclosed t p) (hat : t.at? p = some .directory) :
    Enclosed t (inside p name) := by
  intro r habove hne
  by_cases hr : r <+: p
  · by_cases heq : r = p
    · rw [heq, hat]
    · exact h r hr heq
  · rw [FileTree.inside] at habove hne
    split_ifs at habove hne with hdown hroot
    · exact absurd ((prefix_concat_iff.1 habove).resolve_left hne) hr
    · exact absurd habove hr
    · exact absurd (habove.trans ( dropLast_prefix p)) hr

lemma enclosed_of_follow (h : t.follow path = .ok p) : Enclosed t p := by
  refine foldlM_invariant (fun hp hgo => ?_) h ?_
  · obtain ⟨hat, rfl⟩ := go_eq_ok_iff.1 hgo
    exact hp.inside hat
  intro r habove hne
  split_ifs at habove hne with hroot
  · exact absurd (prefix_nil.1 habove) hne
  · have hroots : r <+: [] ++ rootPlace := habove
    have hnil : r <+: [] := (prefix_concat_iff.1 hroots).resolve_left hne
    rw [prefix_nil.1 hnil]
    rfl

/-- A double dot leads to a directory, so what is no directory stands below the one that a path was
followed to. -/
lemma inside_eq_concat (h : Enclosed t p) (hat : t.at? p = some .directory)
    (hfile : t.at? (inside p name) ≠ some .directory) : inside p name = p ++ [name] := by
  rw [inside] at hfile ⊢
  split_ifs at hfile ⊢ with hdown hroot
  · rfl
  · exact absurd hat hfile
  · -- The way up leads to a place above, except at the start, from where a double dot leads on.
    refine absurd (h _ ( dropLast_prefix p) fun heq => hdown (.inr ?_)) hfile
    have hlength := congrArg length heq
    rw [length_dropLast] at hlength
    have hnil : p = [] := length_eq_zero_iff.1 (by omega)
    rw [hnil]
    rfl

/-! ## Reading and writing -/

lemma read_eq_ok_iff :
    t.read path = .ok content ↔ ∃ p, t.follow path = .ok p ∧ t.at? p = some (.file content) := by
  rw [read]
  cases t.follow path with
  | error cause => simp
  | ok p =>
    cases hat : t.at? p with
    | none => simp [hat]
    | some entry => cases entry <;> simp [hat]

lemma parentOf_eq_ok (h : (parentOf path).run t = (.ok p, t')) :
    t.follow path.parent = .ok p ∧ t.at? p = some .directory ∧ t' = t := by
  obtain ⟨s, t₁, hget, h⟩ := run_bind_eq_ok h
  cases hget
  cases hfollow : t.follow path.parent with
  | error cause =>
    rw [hfollow] at h
    cases h
  | ok q =>
    rw [hfollow] at h
    cases hat : t.at? q with
    | none =>
      simp only [hat] at h
      cases h
    | some entry =>
      simp only [hat] at h
      cases entry with
      | file content => cases h
      | directory =>
        cases h
        exact ⟨rfl, hat, rfl⟩

lemma write_eq_ok (h : (write path content).run t = (.ok (), t')) :
    ∃ p, t.follow path.parent = .ok p ∧ t.at? p = some .directory ∧
      inside p path.name = p ++ [path.name] ∧ t.at? (inside p path.name) ≠ some .directory ∧
      t' = t.put (inside p path.name) (.file content) := by
  obtain ⟨p, t₁, hparent, hrest⟩ := run_bind_eq_ok h
  obtain ⟨hfollow, hat, rfl⟩ := parentOf_eq_ok hparent
  obtain ⟨s, t₂, hget, hput⟩ := run_bind_eq_ok hrest
  cases hget
  have hplace : t₁.at? (inside p path.name) ≠ some .directory := by
    intro hdirectory
    simp only [hdirectory] at hput
    cases hput
  have hconcat := inside_eq_concat (enclosed_of_follow hfollow) hat hplace
  refine ⟨p, hfollow, hat, hconcat, hplace, ?_⟩
  cases hentry : t₁.at? (inside p path.name) with
  | none =>
    simp only [hentry] at hput
    cases hput
    rfl
  | some entry =>
    cases entry with
    | directory => exact absurd hentry hplace
    | file old =>
      simp only [hentry] at hput
      cases hput
      rfl

lemma keepsDirectories_put (h : t.at? p ≠ some .directory) : KeepsDirectories t (t.put p entry) := by
  intro q hq
  have hne : q ≠ p := fun heq => h (heq ▸ hq)
  rw [at?_put_of_ne entry hne, hq]

/-- A file that has been written is read back. -/
theorem read_write (hne : path.parts ≠ []) (h : (write path content).run t = (.ok (), t')) :
    t'.read path = .ok content := by
  obtain ⟨p, hfollow, hat, -, hplace, rfl⟩ := write_eq_ok h
  have hkeeps := keepsDirectories_put (.file content) hplace
  have hpath : t.follow path = .ok (inside p path.name) := (follow_eq_ok_iff hne).2 ⟨p, hfollow, hat, rfl⟩
  exact read_eq_ok_iff.2 ⟨_, follow_of_keepsDirectories hkeeps hpath,
    at?_put_self _ (mt at?_of_isFixed hplace)⟩

/-- Writing a file leaves those of other names as they are. -/
theorem read_write_other (hne : path.parts ≠ []) (hname : other.name ≠ path.name)
    (hread : t.read path = .ok content) (h : (write other content').run t = (.ok (), t')) :
    t'.read path = .ok content := by
  obtain ⟨p, -, -, hother, hplace, rfl⟩ := write_eq_ok h
  obtain ⟨q, hq, hfile⟩ := read_eq_ok_iff.1 hread
  have hkeeps := keepsDirectories_put (.file content') hplace
  refine read_eq_ok_iff.2 ⟨q, follow_of_keepsDirectories hkeeps hq, ?_⟩
  obtain ⟨r, hr, hat, rfl⟩ := (follow_eq_ok_iff hne).1 hq
  have hconcat := inside_eq_concat (enclosed_of_follow hr) hat (by rw [hfile]; simp)
  have hplaces : inside r path.name ≠ inside p other.name := by
    rw [hconcat, hother]
    intro heq
    exact hname (singleton_inj.1 (append_inj' heq rfl).2).symm
  rw [at?_put_of_ne _ hplaces, hfile]

end Restage.FileTree
