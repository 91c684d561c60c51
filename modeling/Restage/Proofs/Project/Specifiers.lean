import Restage.Project.Basic
import Restage.Proofs.Path.Names

/-!
# Where specifiers lead

A specifier is a path from the directory of the importing module: some double dots that lead up to
the names the two modules have in common, and the names below.  Whoever resolves it puts it behind
that directory and undoes the double dots.  The main result says that this gives the imported module
again (`specifier_resolves`).

Resolving is stated with paths alone.  `Path.normal` goes through the names of a path, takes back
one for each double dot, and knows nothing of the routes that specifiers are made from.
-/

namespace Restage

open Text List

/-! ## Normal paths -/

namespace Path

/-- One name more behind the names of a path, which are held backwards.  A double dot takes back the
name before it; there is nothing above the root, and above a relative path the double dot stays. -/
def advance (root : Text) (names : List Text) (name : Text) : List Text :=
  if name = "..".toList then
    match names with
    | [] => if root.isEmpty then [name] else []
    | last :: above => if last = "..".toList then name :: names else above
  else name :: names

/-- The path without double dots behind names. -/
def normal (p : Path) : Path := { p with parts := (p.parts.foldl (advance p.root) []).reverse }

/-- A name that leads down. -/
def IsStep (name : Text) : Prop := IsName name ∧ name ≠ "..".toList

instance (name : Text) : Decidable (IsStep name) :=
  inferInstanceAs (Decidable (IsName name ∧ name ≠ "..".toList))

variable {root : Text} {names : List Text}

lemma advance_of_ne {name : Text} (h : name ≠ "..".toList) (before : List Text) :
    advance root before name = name :: before := if_neg h

lemma advance_back {last : Text} (h : last ≠ "..".toList) (above : List Text) :
    advance root (last :: above) "..".toList = above := if_neg h

lemma foldl_advance_names (h : ∀ name ∈ names, IsStep name) (before : List Text) :
    names.foldl (advance root) before = names.reverse ++ before := by
  induction names generalizing before with
  | nil => rfl
  | cons name names ih =>
    rw [forall_mem_cons] at h
    rw [foldl_cons, advance_of_ne h.1.2, ih h.2]
    simp

lemma foldl_advance_back (h : ∀ name ∈ names, IsStep name) (before : List Text) :
    (names.map fun _ => "..".toList).foldl (advance root) (names ++ before) = before := by
  induction names generalizing before with
  | nil => rfl
  | cons name names ih =>
    rw [forall_mem_cons] at h
    rw [map_cons, foldl_cons, cons_append, advance_back h.1.2]
    exact ih h.2 before

end Path

namespace Module

open Restage.Path (IsName IsStep)

/-! ## Paths of modules -/

/-- A relative path without empty names and without dots. -/
def IsPlain (t : Text) : Prop := ∀ name ∈ parts '/' t, name ≠ [] ∧ name ≠ ".".toList ∧ name ≠ "..".toList

instance (t : Text) : Decidable (IsPlain t) :=
  inferInstanceAs (Decidable
    (∀ name ∈ parts '/' t, name ≠ [] ∧ name ≠ ".".toList ∧ name ≠ "..".toList))

/-- The directory from which a module imports. -/
def importsFrom : Option Text → Path
  | none => .current
  | some importer => (Path.parse importer).parent

variable {t : Text}

lemma IsPlain.isStep (h : IsPlain t) : ∀ name ∈ parts '/' t, IsStep name := by
  intro name hname
  obtain ⟨hne, hdot, hdots⟩ := h name hname
  exact ⟨⟨hne, hdot, notMem_of_mem_parts hname⟩, hdots⟩

lemma IsPlain.parse_eq (h : IsPlain t) : Path.parse t = ⟨[], parts '/' t⟩ := by
  have hparse := Path.parse_join fun name hname => (h.isStep name hname).1
  rwa [show join "/" (parts '/' t) = t from join_parts '/' t] at hparse

lemma toText_parts (t : Text) : (⟨[], parts '/' t⟩ : Path).toText = t := by
  rw [Path.toText, if_neg]
  · exact join_parts '/' t
  · simp [parts_ne_nil]

/-! ## Places -/

lemma foldl_enter {names : List Text} (h : ∀ name ∈ names, IsStep name) (p : Place) :
    names.foldl Place.enter p = { p with names := names.reverse ++ p.names } := by
  induction names generalizing p with
  | nil => rfl
  | cons name names ih =>
    rw [forall_mem_cons] at h
    obtain ⟨⟨⟨hne, hdot, -⟩, hdots⟩, hrest⟩ := h
    rw [foldl_cons, Place.enter, if_neg (not_or.2 ⟨by simpa using hne, hdot⟩), if_neg hdots, ih hrest]
    simp

lemma place_of_isStep (h : ∀ name ∈ parts '/' t, IsStep name) : place t = ⟨0, parts '/' t⟩ := by
  rw [place, foldl_enter h]
  simp

/-- The place of the directory of a module has its names but the last. -/
lemma IsPlain.place_directory (h : IsPlain t) : place (directory t) = ⟨0, (parts '/' t).dropLast⟩ := by
  have hparts := dropLast_append_getLast (parts_ne_nil '/' t)
  have hsteps : ∀ name ∈ (parts '/' t).dropLast, IsStep name := fun name hname =>
    h.isStep name (dropLast_subset _ hname)
  have hlast : '/' ∉ (parts '/' t).getLast (parts_ne_nil '/' t) := notMem_of_mem_parts (getLast_mem _)
  have htext := join_parts '/' t
  rw [← hparts] at htext
  by_cases hempty : (parts '/' t).dropLast = []
  · rw [hempty] at htext
    have hslash : '/' ∉ t := by
      rw [← htext]
      simpa [join] using hlast
    rw [directory, beforeLast?_of_notMem hslash, hempty]
    rfl
  · rw [join_concat hempty] at htext
    have hdirectory : directory t = join ['/'] (parts '/' t).dropLast := by
      rw [directory, beforeLast?_eq_some_iff.2 ⟨_, htext.symm, hlast⟩]
      rfl
    have hnames : parts '/' (directory t) = (parts '/' t).dropLast := by
      rw [hdirectory]
      exact parts_join hempty fun name hname => (hsteps name hname).1.2.2
    rw [← hnames]
    exact place_of_isStep (hnames ▸ hsteps)

/-! ## Routes -/

lemma diverge_spec (as bs : List Text) :
    ∃ common, as = common ++ (diverge as bs).1 ∧ bs = common ++ (diverge as bs).2 := by
  induction as generalizing bs with
  | nil => exact ⟨[], rfl, rfl⟩
  | cons a as ih =>
    cases bs with
    | nil => exact ⟨[], rfl, rfl⟩
    | cons b bs =>
      rw [diverge]
      split_ifs with hab
      · obtain ⟨common, has, hbs⟩ := ih bs
        exact ⟨a :: common, congrArg (a :: ·) has, hab ▸ congrArg (a :: ·) hbs⟩
      · exact ⟨[], rfl, rfl⟩

/-- The names of a route, and of the specifier that is made from it. -/
def routeNames (origin target : List Text) : List Text :=
  ((diverge origin target).1.map fun _ => "..".toList) ++ (diverge origin target).2

variable {origin target : List Text}

lemma isName_of_mem_routeNames (htarget : ∀ name ∈ target, IsStep name) :
    ∀ name ∈ routeNames origin target, IsName name := by
  intro name hname
  rcases mem_append.1 hname with hup | hdown
  · obtain ⟨-, -, rfl⟩ := mem_map.1 hup
    decide
  · obtain ⟨common, -, hsplit⟩ := diverge_spec origin target
    exact (htarget name (hsplit ▸ mem_append_right _ hdown)).1

/-- **Going the route**: up to what is in common, and down to the target. -/
lemma normal_routeNames (horigin : ∀ name ∈ origin, IsStep name)
    (htarget : ∀ name ∈ target, IsStep name) :
    Path.normal ⟨[], origin ++ routeNames origin target⟩ = ⟨[], target⟩ := by
  obtain ⟨common, hup, hdown⟩ := diverge_spec origin target
  rw [routeNames]
  generalize (diverge origin target).1 = up at hup ⊢
  generalize (diverge origin target).2 = down at hdown ⊢
  subst hup hdown
  rw [forall_mem_append] at horigin htarget
  have hback : (up.map fun _ => "..".toList) = (up.reverse.map fun _ => "..".toList) := by simp
  rw [Path.normal, foldl_append, foldl_append,
    Path.foldl_advance_names (forall_mem_append.2 horigin), append_nil, reverse_append,
    hback, Path.foldl_advance_back (fun name hname => horigin.2 name (mem_reverse.1 hname)),
    Path.foldl_advance_names htarget.2, reverse_append, reverse_reverse,
    reverse_reverse]

/-! ## Specifiers -/

lemma parse_dotted (t : Text) : (Path.parse ("./" ++ t)).parts = (Path.parse t).parts := by
  rfl

lemma parse_specifier {names : List Text} (h : ∀ name ∈ names, IsName name) :
    let route : Text := if names.isEmpty then "." else join "/" names
    Path.parse (if startsWith "." route then route else "./" ++ route) = ⟨[], names⟩ := by
  intro route
  have hroute : Path.parse route = ⟨[], names⟩ := by
    cases names with
    | nil => rfl
    | cons name rest => exact Path.parse_join h
  split_ifs with hdot
  · exact hroute
  · have hparts := (parse_dotted route).trans (congrArg Path.parts hroute)
    have hroot : (Path.parse ("./" ++ route)).root = [] := by
      exact Path.rootOf_eq_nil (t := "./" ++ route) (by simp)
    cases hparse : Path.parse ("./" ++ route) with
    | mk root parts =>
      rw [hparse] at hparts hroot
      cases hparts
      cases hroot
      rfl

lemma exists_specifier {importer : Option Text} {origin : List Text} (h : IsPlain t)
    (horigin : place (directory (importer.getD [])) = ⟨0, origin⟩) :
    ∃ s, specifier? t importer = some s ∧
      Path.parse s = ⟨[], routeNames origin (parts '/' t)⟩ := by
  have hne : ¬ t.isEmpty = true := by
    intro hempty
    rw [isEmpty_iff.1 hempty] at h
    exact (h [] (by decide)).1 rfl
  have hroute : Place.route ⟨0, origin⟩ ⟨0, parts '/' t⟩ =
      if (routeNames origin (parts '/' t)).isEmpty then ".".toList
      else join "/" (routeNames origin (parts '/' t)) := rfl
  rw [specifier?, if_neg hne, horigin, place_of_isStep h.isStep]
  exact ⟨_, rfl, parse_specifier (isName_of_mem_routeNames h.isStep)⟩

end Module

/-- **Specifiers lead to their modules.**  A class lives in a module, and another module imports it,
both with relative paths of any depth without empty names and dots, or there is no importing module.
Then there is a specifier, and behind the directory of the importing module it leads to the module
of the class. -/
theorem specifier_resolves (p : Project) {name target : Text} {importer : Option Text}
    (hname : p.modules.get? name = some target) (htarget : Module.IsPlain target)
    (himporter : ∀ f ∈ importer, Module.IsPlain f) :
    ∃ s, p.specifier? name importer = some s ∧
      (Module.importsFrom importer ++ Path.parse s).normal.toText = target := by
  -- The names of the directory, as the specifier sees it and as the path does.
  obtain ⟨origin, hplace, hpath, hsteps⟩ : ∃ origin : List Text,
      Module.place (Module.directory (importer.getD [])) = ⟨0, origin⟩ ∧
      Module.importsFrom importer = ⟨[], origin⟩ ∧ ∀ name ∈ origin, Path.IsStep name := by
    cases importer with
    | none => exact ⟨[], rfl, rfl, List.forall_mem_nil _⟩
    | some f =>
      have hf := himporter f rfl
      refine ⟨(parts '/' f).dropLast, hf.place_directory, ?_, fun name hname =>
        hf.isStep name (List.dropLast_subset _ hname)⟩
      rw [Module.importsFrom, hf.parse_eq]
      rfl
  obtain ⟨s, hs, hparse⟩ := Module.exists_specifier htarget hplace
  refine ⟨s, ?_, ?_⟩
  · rw [Project.specifier?, hname]
    exact hs
  · have hjoined : Module.importsFrom importer ++ Path.parse s =
        ⟨[], origin ++ Module.routeNames origin (parts '/' target)⟩ := by
      rw [hpath, hparse]
      rfl
    rw [hjoined, Module.normal_routeNames hsteps htarget.isStep]
    exact Module.toText_parts target

/-- Up two directories and down another way; and up from below a directory that is itself a
module. -/
theorem specifier_resolves_above :
    let p : Project := { modules := [("A", "pages/login/A"), ("B", "pages")] }
    (p.specifier? "A" (some "pages/home/menu/C") = some "../../login/A".toList ∧
      (Module.importsFrom (some "pages/home/menu/C") ++ Path.parse "../../login/A").normal.toText =
        "pages/login/A".toList) ∧
    (p.specifier? "B" (some "pages/C") = some ".".toList ∧
      (Module.importsFrom (some "pages/C") ++ Path.parse ".").normal.toText = "pages".toList) := by
  intro p
  have hA : ∃ s, p.specifier? "A" (some "pages/home/menu/C") = some s ∧
      (Module.importsFrom (some "pages/home/menu/C") ++ Path.parse s).normal.toText =
        "pages/login/A".toList := by
    refine specifier_resolves p rfl (by decide) ?_
    rintro _ ⟨⟩
    decide
  have hB : ∃ s, p.specifier? "B" (some "pages/C") = some s ∧
      (Module.importsFrom (some "pages/C") ++ Path.parse s).normal.toText = "pages".toList := by
    refine specifier_resolves p rfl (by decide) ?_
    rintro _ ⟨⟩
    decide
  obtain ⟨s, hs, hresolved⟩ := hA
  obtain ⟨s', hs', hresolved'⟩ := hB
  have hup : p.specifier? "A" (some "pages/home/menu/C") = some "../../login/A".toList := by decide
  have hhere : p.specifier? "B" (some "pages/C") = some ".".toList := by decide
  cases hup.symm.trans hs
  cases hhere.symm.trans hs'
  exact ⟨⟨hup, hresolved⟩, hhere, hresolved'⟩

end Restage
