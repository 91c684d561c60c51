import Restage.Proofs.TypeScript.Accounting

/-!
# Notes between lines

A note is put in above a line that was written long before, and everything that is written
afterwards lands one line further down.  `weave` says what the body of a sheet looks like then: the
lines without notes, and above some of them a note at the depth of the line.  Positions always count
lines without notes, so that they do not move.

`Noted` compares a sheet with one on which notes were put in.  Calls that write at the end keep it,
since a note never stands last: in particular an empty line is left out on both sheets or on none.
-/

namespace Restage.TypeScript

open Text List

variable {t : Text} {xs ys : List Line} {n m : Nat}

/-- Lines from the given position on, with notes put in above them. -/
def weaveFrom (notes : List (Nat × Text)) (n : Nat) : List Line → List Line
  | [] => []
  | line :: rest =>
    ((notes.filter fun note => note.1 = n).map fun note => ⟨line.depth, note.2⟩) ++
      line :: weaveFrom notes (n + 1) rest

/-- A body with notes put in: each stands right above the line at its position, at the depth of that
line. -/
def weave (notes : List (Nat × Text)) (body : List Line) : List Line := weaveFrom notes 0 body

section Weave

variable {notes : List (Nat × Text)}

lemma weaveFrom_append (n : Nat) (xs ys : List Line) :
    weaveFrom notes n (xs ++ ys) = weaveFrom notes n xs ++ weaveFrom notes (n + xs.length) ys := by
  induction xs generalizing n with
  | nil => rfl
  | cons x xs ih =>
    have hlength : n + 1 + xs.length = n + (x :: xs).length := by
      rw [length_cons]
      omega
    rw [cons_append, weaveFrom, weaveFrom, ih, hlength, append_assoc, cons_append]

lemma weaveFrom_of_lt (h : ∀ note ∈ notes, note.1 < n) (xs : List Line) :
    weaveFrom notes n xs = xs := by
  induction xs generalizing n with
  | nil => rfl
  | cons x xs ih =>
    have hnone : (notes.filter fun note => note.1 = n) = [] := by
      rw [filter_eq_nil_iff]
      intro note hnote
      have := h note hnote
      simp only [decide_eq_true_eq]
      omega
    rw [weaveFrom, hnone, ih fun note hnote => Nat.lt_succ_of_lt (h note hnote)]
    rfl

lemma weaveFrom_concat (h : n + xs.length ≤ m) :
    weaveFrom (notes ++ [(m, t)]) n xs = weaveFrom notes n xs := by
  induction xs generalizing n with
  | nil => rfl
  | cons x xs ih =>
    rw [length_cons] at h
    have hne : m ≠ n := by omega
    have hfilter : (notes ++ [(m, t)]).filter (fun note => decide (note.1 = n)) =
        notes.filter fun note => note.1 = n := by
      simp [hne]
    rw [weaveFrom, weaveFrom, hfilter, ih (by omega)]

lemma weave_append (h : ∀ note ∈ notes, note.1 < xs.length) :
    weave notes (xs ++ ys) = weave notes xs ++ ys := by
  rw [weave, weaveFrom_append, zero_add, weaveFrom_of_lt h]
  rfl

lemma weave_concat {line : Line} (h : ∀ note ∈ notes, note.1 < m) (hm : xs.length = m) :
    weave (notes ++ [(m, t)]) (xs ++ line :: ys) =
      weave notes xs ++ ⟨line.depth, t⟩ :: line :: ys := by
  have hnone : (notes.filter fun note => note.1 = m) = [] := by
    rw [filter_eq_nil_iff]
    intro note hnote
    have := h note hnote
    simp only [decide_eq_true_eq]
    omega
  have hbelow : ∀ note ∈ notes ++ [(m, t)], note.1 < m + 1 := by
    intro note hnote
    rcases mem_append.1 hnote with hnote | hnote
    · exact Nat.lt_succ_of_lt (h note hnote)
    · rw [mem_singleton.1 hnote]
      exact Nat.lt_succ_self m
  have habove : weaveFrom (notes ++ [(m, t)]) 0 xs = weaveFrom notes 0 xs := weaveFrom_concat (by omega)
  rw [weave, weaveFrom_append, habove, zero_add, hm, weaveFrom, weaveFrom_of_lt hbelow,
    filter_append, hnone]
  simp [weave]

lemma getLast?_weave (notes : List (Nat × Text)) (body : List Line) :
    (weave notes body).getLast? = body.getLast? := by
  rcases eq_nil_or_concat body with rfl | ⟨xs, line, rfl⟩
  · rfl
  · rw [concat_eq_append, weave, weaveFrom_append]
    simp [weaveFrom]

end Weave

/-- The second sheet is the first one with notes put in above lines that are there. -/
structure Noted (notes : List (Nat × Text)) (s s' : Sheet) : Prop where
  baseImports : s'.baseImports = s.baseImports
  imports : s'.imports = s.imports
  scopes : s'.scopes = s.scopes
  droppedClosers : s'.droppedClosers = s.droppedClosers
  body : s'.body = weave notes s.body
  below : ∀ note ∈ notes, note.1 < s.body.length

namespace Noted

variable {notes : List (Nat × Text)} {s s' : Sheet}

lemma refl (s : Sheet) : Noted [] s s :=
  ⟨rfl, rfl, rfl, rfl, (weaveFrom_of_lt (by simp) s.body).symm, by simp⟩

variable (h : Noted notes s s')
include h

lemma depth : s'.depth = s.depth := congrArg List.length h.scopes

lemma write (lines : List Line) :
    Noted notes { s with body := s.body ++ lines } { s' with body := s'.body ++ lines } := by
  refine ⟨h.baseImports, h.imports, h.scopes, h.droppedClosers, ?_, ?_⟩
  · rw [h.body]
    exact (weave_append h.below).symm
  · intro note hnote
    have := h.below note hnote
    simp only [length_append]
    omega

lemma setScopes (scopes : List Text) : Noted notes { s with scopes } { s' with scopes } :=
  ⟨h.baseImports, h.imports, rfl, h.droppedClosers, h.body, h.below⟩

lemma emit (line : Text) : Noted notes (s.emit line) (s'.emit line) := by
  rw [Sheet.emit, Sheet.emit, h.depth]
  exact h.write _

lemma emitAll (lines : List Text) : Noted notes (s.emitAll lines) (s'.emitAll lines) := by
  induction lines generalizing s s' with
  | nil => exact h
  | cons line lines ih => exact ih (h.emit line)

lemma openScope (line closer : Text) :
    Noted notes (s.openScope line closer) (s'.openScope line closer) := by
  rw [Sheet.openScope, Sheet.openScope, (h.emit line).scopes]
  exact (h.emit line).setScopes _

lemma blank : Noted notes s.blank s'.blank := by
  have hlast : s'.body.getLast? = s.body.getLast? := by rw [h.body, getLast?_weave]
  rw [Sheet.blank, Sheet.blank, hlast]
  split
  · split_ifs
    · exact h
    · exact h.write _
  · exact h

lemma chain (line : Text) : Noted notes (s.chain line) (s'.chain line) := by
  cases hscopes : s.scopes with
  | nil =>
    rw [Sheet.chain, Sheet.chain, h.scopes, hscopes]
    exact h.openScope line _
  | cons closer outer =>
    have hwrite := (h.write [⟨outer.length, line⟩]).setScopes (closer :: outer)
    rw [Sheet.chain_of_scopes hscopes, Sheet.chain_of_scopes (h.scopes.trans hscopes)]
    exact hwrite

lemma closeScope : Noted notes s.closeScope s'.closeScope := by
  cases hscopes : s.scopes with
  | nil =>
    rw [Sheet.closeScope_of_none hscopes, Sheet.closeScope_of_none (h.scopes.trans hscopes),
      h.droppedClosers]
    exact ⟨h.baseImports, h.imports, h.scopes, rfl, h.body, h.below⟩
  | cons closer outer =>
    have hwrite := (h.write [⟨outer.length, closer⟩]).setScopes outer
    rw [Sheet.closeScope_of_scopes hscopes, Sheet.closeScope_of_scopes (h.scopes.trans hscopes)]
    exact hwrite

lemma addImport (statement : Text) : Noted notes (s.addImport statement) (s'.addImport statement) := by
  refine ⟨h.baseImports, ?_, h.scopes, h.droppedClosers, h.body, h.below⟩
  rw [Sheet.addImport, Sheet.addImport, h.imports]

lemma addImports (statements : List Text) :
    Noted notes (statements.foldl Sheet.addImport s) (statements.foldl Sheet.addImport s') := by
  induction statements generalizing s s' with
  | nil => exact h
  | cons statement statements ih => exact ih (h.addImport statement)

lemma perform {c : Call} (hc : ∀ p lines, c ≠ .insert p lines) :
    Noted notes (s.perform c) (s'.perform c) := by
  cases c with
  | insert position lines => exact absurd rfl (hc position lines)
  | addImport statement => exact h.addImport statement
  | emit lines => exact h.emitAll lines
  | comment text => exact h.emit _
  | blank => exact h.blank
  | openScope line closer => exact h.openScope line closer
  | chain line => exact h.chain line
  | closeScope => exact h.closeScope

lemma performAll {calls : List Call} (hcalls : ∀ c ∈ calls, ∀ p lines, c ≠ .insert p lines) :
    Noted notes (s.performAll calls) (s'.performAll calls) := by
  induction calls generalizing s s' with
  | nil => exact h
  | cons c calls ih => exact ih (h.perform (hcalls c (by simp))) fun d hd => hcalls d (by simp [hd])

/-- **One more note.**  It goes above a line that lies below all other notes, and the position of
that line on the second sheet has moved by the notes above it. -/
lemma insert {m : Nat} (hm : m < s.body.length) (habove : ∀ note ∈ notes, note.1 < m) (t : Text) :
    Noted (notes ++ [(m, t)]) s
      ((s'.insert? ((weave notes (s.body.take m)).length : Nat) [t]).getD s') := by
  have hlength : (s.body.take m).length = m := by
    rw [length_take]
    omega
  obtain ⟨line, ys, hdrop⟩ : ∃ line ys, s.body.drop m = line :: ys := by
    cases hd : s.body.drop m with
    | nil =>
      have := congrArg length hd
      rw [length_drop, length_nil] at this
      omega
    | cons line ys => exact ⟨line, ys, rfl⟩
  have hbody : s.body = s.body.take m ++ line :: ys := by
    rw [← hdrop, take_append_drop]
  generalize hp : (weave notes (s.body.take m)).length = p
  have hbody' : s'.body = weave notes (s.body.take m) ++ line :: ys := by
    have hweave : weave notes (s.body.take m ++ line :: ys) =
        weave notes (s.body.take m) ++ line :: ys := weave_append (by rwa [hlength])
    rw [h.body, ← hweave, ← hbody]
  have hlt : p < s'.body.length := by
    rw [hbody', length_append, length_cons]
    omega
  have hdepth : s'.depthAt? p = some line.depth := by
    have hend : ¬((s'.body.length : Int) ≤ p) := by omega
    have hneg : ¬((p : Int) < 0) := by omega
    simp only [Sheet.depthAt?, if_neg hend, if_neg hneg, Int.toNat_natCast]
    rw [hbody', getElem?_append_right (by omega), hp, Nat.sub_self]
    rfl
  have hinsert : Sheet.insertLines line.depth s'.body p [t] =
      weave notes (s.body.take m) ++ ⟨line.depth, t⟩ :: line :: ys := by
    have hneg : ¬((p : Int) < 0) := by omega
    simp only [Sheet.insertLines, Sheet.insertLine, if_neg hneg, Int.toNat_natCast]
    rw [hbody', take_left' hp, drop_left' hp]
  rw [Sheet.insert?, hdepth]
  refine ⟨h.baseImports, h.imports, h.scopes, h.droppedClosers, ?_, ?_⟩
  · simp only [Option.map_some, Option.getD_some]
    rw [hinsert, ← weave_concat habove hlength, ← hbody]
  · intro note hnote
    rcases mem_append.1 hnote with hnote | hnote
    · exact h.below note hnote
    · rw [mem_singleton.1 hnote]
      exact hm

end Noted

end Restage.TypeScript
