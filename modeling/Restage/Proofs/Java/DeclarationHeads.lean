import Restage.Java.Call
import Restage.Proofs.Text.Readers

/-!
# Declarations up to their equals sign

The readers of a declaration look at the text up to its equals sign and no further: what follows the
sign is carried along (`typeEnds_equals`).  So whether a text declares a variable is a matter of
what precedes the sign (`HeadsDeclaration`), and a declaration is still one when the text is cut off
after the sign (`HeadsDeclaration.isSome`).
-/

namespace Restage.Text

open List

variable {p : Char → Bool} (u y : Text)

lemma dropWhile_equals (hp : p '=' = false) (u y : Text) :
    (u ++ '=' :: y).dropWhile p = u.dropWhile p ++ '=' :: y := by
  rw [dropWhile_append]
  split_ifs with hempty
  · rw [isEmpty_iff.1 hempty, dropWhile_cons_of_neg (by simp [hp])]
    rfl
  · rfl

lemma takeWhile_equals (hp : p '=' = false) (u y : Text) :
    (u ++ '=' :: y).takeWhile p = u.takeWhile p := by
  rw [takeWhile_append]
  split_ifs with hall
  · rw [takeWhile_cons_of_neg (by simp [hp]), append_nil]
    exact (( takeWhile_prefix p).eq_of_length hall).symm
  · rfl

lemma blanks_equals : blanks (u ++ '=' :: y) = blanks u ++ '=' :: y :=
  dropWhile_equals (by decide) u y

lemma someBlanks?_equals :
    someBlanks? (u ++ '=' :: y) = (someBlanks? u).map (· ++ '=' :: y) := by
  cases u with
  | nil => rfl
  | cons c u =>
    rw [cons_append, someBlanks?, someBlanks?]
    split_ifs
    · rw [blanks_equals, Option.map_some]
    · rfl

lemma run?_equals (hp : p '=' = false) (u y : Text) :
    run? p (u ++ '=' :: y) = (run? p u).map fun found => (found.1, found.2 ++ '=' :: y) := by
  cases u with
  | nil =>
    rw [nil_append, run?, hp]
    rfl
  | cons c u =>
    rw [cons_append, run?, run?]
    split_ifs
    · rw [takeWhile_equals hp, dropWhile_equals hp, Option.map_some]
    · rfl

lemma literal?_equals {w : Text} (hw : '=' ∉ w) (u y : Text) :
    literal? w (u ++ '=' :: y) = (literal? w u).map (· ++ '=' :: y) := by
  induction w generalizing u with
  | nil => rfl
  | cons d w ih =>
    rw [mem_cons, not_or] at hw
    cases u with
    | nil =>
      rw [nil_append, literal?_cons_cons, if_neg (by simpa using Ne.symm hw.1)]
      rfl
    | cons c u =>
      rw [cons_append, literal?_cons_cons, literal?_cons_cons]
      split_ifs
      · exact ih hw.2 u
      · rfl

end Restage.Text

namespace Restage.Java

open Text List Option

variable (u y : Text)

lemma genericEnds_equals :
    genericEnds (u ++ '=' :: y) = (genericEnds u).map (· ++ '=' :: y) := by
  induction u with
  | nil => rfl
  | cons c u ih =>
    rw [cons_append, genericEnds, genericEnds]
    split_ifs
    · rfl
    · rw [ih, map_append]
      rfl
    · exact ih

lemma arrayBrackets?_equals :
    arrayBrackets? (u ++ '=' :: y) = (arrayBrackets? u).map (· ++ '=' :: y) := by
  rw [arrayBrackets?, arrayBrackets?, blanks_equals]
  generalize blanks u = v
  cases v with
  | nil => rfl
  | cons c v =>
    by_cases hopen : c = '['
    · subst hopen
      simp only [cons_append, blanks_equals]
      generalize blanks v = x
      cases x with
      | nil => rfl
      | cons d x =>
        by_cases hclose : d = ']'
        · subst hclose
          rfl
        · simp [hclose]
    · simp [hopen]

lemma arraySuffix_equals : arraySuffix (u ++ '=' :: y) = arraySuffix u ++ '=' :: y := by
  induction u using arraySuffix.induct with
  | case1 u hnone =>
    have hstop := arrayBrackets?_equals u y
    rw [arraySuffix, hstop, arraySuffix, hnone]
    rfl
  | case2 u rest hrest ih =>
    have hstop := arrayBrackets?_equals u y
    rw [arraySuffix, hstop, arraySuffix, hrest]
    exact ih

lemma typeEnds_equals : typeEnds (u ++ '=' :: y) = (typeEnds u).map (· ++ '=' :: y) := by
  rw [typeEnds, typeEnds, run?_equals (by decide)]
  cases run? isTypeChar u with
  | none => rfl
  | some found =>
    obtain ⟨read, rest⟩ := found
    dsimp only [Option.map]
    rw [blanks_equals, arraySuffix_equals, map_append]
    refine congrArg (· ++ _) ?_
    generalize blanks rest = v
    cases v with
    | nil => rfl
    | cons c v =>
      by_cases hopen : c = '<'
      · subst hopen
        simp only [cons_append, genericEnds_equals, List.map_map]
        exact map_congr_left fun r _ => arraySuffix_equals r y
      · simp [hopen]

lemma afterFinal_equals : afterFinal (u ++ '=' :: y) = (afterFinal u).map (· ++ '=' :: y) := by
  rw [afterFinal, afterFinal, literal?_equals (by decide)]
  cases literal? "final" u with
  | none => rfl
  | some r =>
    rw [map_some, bind_some, bind_some, someBlanks?_equals]
    cases someBlanks? r <;> rfl

/-! ## Heads of declarations -/

/-- What precedes the equals sign of a declaration: perhaps `final`, then a type and a name. -/
def HeadsDeclaration (u : Text) : Prop :=
  ∃ start ∈ afterFinal u, ∃ rest ∈ typeEnds start, ∃ name r,
    (someBlanks? rest).bind word? = some (name, r) ∧ blanks r = []

lemma word?_equals :
    ((someBlanks? (u ++ '=' :: y)).bind word?) =
      ((someBlanks? u).bind word?).map fun found => (found.1, found.2 ++ '=' :: y) := by
  rw [someBlanks?_equals]
  cases someBlanks? u with
  | none => rfl
  | some r => exact run?_equals (by decide) r y

lemma HeadsDeclaration.trimLeft_eq {u : Text} (h : HeadsDeclaration u) : trimLeft u = u := by
  obtain ⟨start, hstart, rest, hrest, -⟩ := h
  rcases mem_append.1 hstart with hstart | hstart
  · obtain ⟨r, hfinal, -⟩ := bind_eq_some_iff.1 (mem_toList.1 hstart)
    rw [literal?_eq_some.1 hfinal]
    rfl
  · rw [mem_singleton.1 hstart, typeEnds] at hrest
    cases u with
    | nil => rfl
    | cons c u =>
      rw [run?] at hrest
      split_ifs at hrest with hc
      · refine dropWhile_cons_of_neg (Bool.not_eq_true _ ▸ ?_)
        rw [isTypeChar, Bool.or_eq_true, Bool.or_eq_true, beq_iff_eq, beq_iff_eq] at hc
        rcases hc with (hc | rfl) | rfl
        · exact isBlank_eq_false_of_isWord hc
        · decide
        · decide
      · cases hrest

lemma HeadsDeclaration.isSome {u : Text} (h : HeadsDeclaration u) {accept : Text → Option Text}
    (haccept : (accept []).isSome = true) : (declaredVariable? accept (u ++ ['='])).isSome = true := by
  obtain ⟨start, hstart, rest, hrest, name, r, hname, hblank⟩ := h
  rw [declaredVariable?, afterFinal_equals, findSome?_isSome_iff]
  refine ⟨start ++ ['='], mem_map_of_mem hstart, ?_⟩
  rw [typeEnds_equals, findSome?_isSome_iff]
  refine ⟨rest ++ ['='], mem_map_of_mem hrest, ?_⟩
  obtain ⟨given, hgiven⟩ := isSome_iff_exists.1 haccept
  rw [word?_equals, hname]
  simp only [map_some, bind_eq_bind, bind_some, blanks_equals, hblank, nil_append]
  have hequals : literal? "=" ['='] = some [] := rfl
  rw [hequals, bind_some, hgiven]
  rfl

end Restage.Java
