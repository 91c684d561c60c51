import Restage.Proofs.TypeScript.ShownLines

/-!
# Comment lines between the lines of a statement

A line that holds only a `//` comment is a statement of its own as long as no statement is being
read.  In the middle of a code statement it is taken for code, since what is cut off a line is a
comment behind some code: the comment is joined to the statement, its parentheses are counted, and a
semicolon or brace at its end may end the statement.
-/

namespace Restage.Java

open Text List

/-- A statement has lines on both sides of the position behind the first `n` lines. -/
def Statement.Crosses (s : Statement) (n : Nat) : Prop := s.line ≤ n ∧ n < s.endLine

instance (s : Statement) (n : Nat) : Decidable (s.Crosses n) := inferInstanceAs (Decidable (_ ∧ _))

/-- Whether a text starts like a comment. -/
def isCommentText (t : Text) : Bool := startsWith "//" t || startsWith "/*" t

lemma stripLineComment_of_startsWith {t : Text} (h : startsWith "//" t = true) : stripLineComment t = t := by
  obtain ⟨r, rfl⟩ := isPrefixOf_iff_prefix.1 h
  rfl

lemma isCommentText_stripLineComment {t : Text} (h : isCommentText t = false) :
    isCommentText (stripLineComment t) = false := by
  obtain ⟨r, hr⟩ : stripLineComment t <+: t := by
    unfold stripLineComment
    split
    · exact ( rdropWhile_prefix isBlank _).trans ( take_prefix _ t)
    · exact prefix_refl t
  generalize stripLineComment t = u at hr
  subst hr
  rcases u with _ | ⟨c, _ | ⟨d, u⟩⟩
  · rfl
  · simp [isCommentText, startsWith, isPrefixOf]
  · exact h

namespace Reading

variable {start number : Nat} {parts raw : List Text} {depth : Int} {reading : Reading}
  {line : Text} {lines : List Text} {s : Statement}

lemma isComment_statement {p : Text} (hp : p ≠ []) (start endLine : Nat) (rest raw : List Text) :
    (statement start endLine (p :: rest) raw).isComment = isCommentText p := by
  have htext : (statement start endLine (p :: rest) raw).text = p ∨
      ∃ r, (statement start endLine (p :: rest) raw).text = p ++ ' ' :: r := by
    rw [statement, filter_cons_of_pos (by simpa using hp)]
    cases rest.filter (!·.isEmpty) with
    | nil => exact .inl (by simp [join])
    | cons q qs => exact .inr ⟨join " " (q :: qs), by simp [join]⟩
  rw [Statement.isComment]
  rcases htext with htext | ⟨r, htext⟩
  · rw [htext]
    rfl
  · rw [htext]
    rcases p with _ | ⟨c, _ | ⟨d, p⟩⟩
    · exact absurd rfl hp
    · simp [isCommentText, startsWith, isPrefixOf]
    · rfl

/-- A line of a code statement: it has no code, or its code is added to the parts, which may
complete the statement. -/
lemma takeCode_cases (number : Nat) (line stripped : Text) (start : Nat) (parts raw : List Text) (depth : Int) :
    (stripLineComment stripped = [] ∧
        takeCode number line stripped start parts raw depth = (.code start parts raw depth, none)) ∨
      (∃ depth', takeCode number line stripped start parts raw depth =
        (.code start (parts ++ [stripLineComment stripped]) (raw ++ [line]) depth', none)) ∨
      takeCode number line stripped start parts raw depth =
        (.idle, some (statement start number (parts ++ [stripLineComment stripped]) (raw ++ [line]))) := by
  simp only [takeCode]
  split_ifs with hcode
  · exact .inl ⟨isEmpty_iff.1 hcode, rfl⟩
  · exact .inr (.inl ⟨_, rfl⟩)
  · exact .inr (.inr rfl)
  · exact .inr (.inl ⟨_, rfl⟩)

/-- Code that is being read does not start like a comment. -/
def StartsWithCode : Reading → Prop
  | .code _ parts _ _ => ∃ p rest, parts = p :: rest ∧ p ≠ [] ∧ isCommentText p = false
  | _ => True

lemma StartsWithCode.step (h : reading.StartsWithCode) (number : Nat) (line : Text) :
    (reading.step number line).1.StartsWithCode := by
  cases reading with
  | code start parts raw depth =>
    obtain ⟨p, rest, rfl, hp⟩ := h
    rw [Reading.step]
    rcases takeCode_cases number line (trim line) start (p :: rest) raw depth with
      ⟨-, htake⟩ | ⟨_, htake⟩ | htake <;> rw [htake]
    · exact ⟨p, rest, rfl, hp⟩
    · exact ⟨p, _, rfl, hp⟩
    · trivial
  | comment start parts raw =>
    simp only [Reading.step, takeComment]
    split_ifs <;> trivial
  | idle =>
    simp only [Reading.step]
    split_ifs with hempty hslashes hopen
    · trivial
    · trivial
    · simp only [takeComment]
      split_ifs <;> trivial
    · have hcode : stripLineComment (trim line) ≠ [] := fun hnil =>
        hempty (isEmpty_iff.2 (trim_eq_nil_of_stripLineComment (isEmpty_iff.2 hnil)))
      have hstart : isCommentText (trim line) = false :=
        Bool.or_eq_false_iff.2 ⟨eq_false_of_ne_true hslashes, eq_false_of_ne_true hopen⟩
      rcases takeCode_cases number line (trim line) number [] [] 0 with
        ⟨hnil, -⟩ | ⟨_, htake⟩ | htake
      · exact absurd hnil hcode
      · rw [htake]
        exact ⟨_, [], rfl, hcode, isCommentText_stripLineComment hstart⟩
      · rw [htake]
        trivial

lemma statements_cons (reading : Reading) (number : Nat) (line : Text) (rest : List Text) :
    reading.statements number (line :: rest) =
      (reading.step number line).2.toList ++ (reading.step number line).1.statements (number + 1) rest :=
  rfl

/-- **Code in hand** becomes a part of a statement. -/
lemma exists_mem_statements_code (lines : List Text) :
    ∃ endLine more raw', statement start endLine (parts ++ more) raw' ∈
      (Reading.code start parts raw depth).statements number lines := by
  induction lines generalizing number parts raw depth with
  | nil => exact ⟨number - 1, [], raw, by simp [statements, finish]⟩
  | cons line rest ih =>
    rw [statements_cons, step]
    rcases takeCode_cases number line (trim line) start parts raw depth with
      ⟨-, htake⟩ | ⟨depth', htake⟩ | htake
    · rw [htake]
      exact ih
    · obtain ⟨endLine, more, raw', hmem⟩ := @ih (number + 1) (parts ++ [stripLineComment (trim line)])
        (raw ++ [line]) depth'
      rw [htake]
      exact ⟨endLine, stripLineComment (trim line) :: more, raw', by simpa using hmem⟩
    · rw [htake]
      exact ⟨number, [stripLineComment (trim line)], raw ++ [line], by simp⟩

lemma le_line_of_idle (hs : s ∈ Reading.idle.statements number lines) :
    number ≤ s.line := by
  have hidle : Reading.idle.Holds number [] := rfl
  obtain ⟨⟨groups, hspans, hleft⟩, -⟩ := statements_covers lines hidle
  exact le_line_of_spans hspans hleft.1 s hs

lemma le_line_of_comment {part : Text} {rest : List Text} (hpart : startsWith "/*" part = true)
    (hs : s ∈ (Reading.comment start (part :: rest) raw).statements number lines)
    (hcode : s.isComment = false) : number ≤ s.line := by
  have hcomment : ∀ (endLine : Nat) (more raw : List Text),
      (statement start endLine (part :: more) raw).isComment = true := by
    intro endLine more raw
    rw [isComment_statement (by rintro rfl; cases hpart), isCommentText, hpart, Bool.or_true]
  induction lines generalizing number rest raw with
  | nil =>
    rw [mem_singleton.1 hs, hcomment] at hcode
    cases hcode
  | cons line lines ih =>
    rw [statements_cons, step, takeComment] at hs
    split_ifs at hs
    · rcases mem_cons.1 hs with rfl | hs
      · rw [cons_append, hcomment] at hcode
        cases hcode
      · exact Nat.le_of_succ_le (le_line_of_idle hs)
    · exact Nat.le_of_succ_le (ih hs)

lemma exists_joined (h : (Reading.code start parts raw depth).StartsWithCode)
    (hline : startsWith "//" (trim line) = true) (after : List Text) :
    ∃ s ∈ (Reading.code start parts raw depth).statements number (line :: after),
      s.isComment = false ∧ trim line <:+: s.text := by
  obtain ⟨p, rest, rfl, hp, hcode⟩ := h
  have hne : trim line ≠ [] := by
    intro hnil
    rw [hnil] at hline
    cases hline
  have hjoined : ∀ (endLine : Nat) (more raw : List Text),
      (statement start endLine (p :: rest ++ [trim line] ++ more) raw).isComment = false ∧
        trim line <:+: (statement start endLine (p :: rest ++ [trim line] ++ more) raw).text := by
    intro endLine more raw
    refine ⟨(isComment_statement hp ..).trans hcode, TypeScript.infix_join _ ?_⟩
    simp [hne]
  rw [statements_cons, step]
  rcases takeCode_cases number line (trim line) start (p :: rest) raw depth with
    ⟨hnil, -⟩ | ⟨depth', htake⟩ | htake
  · rw [stripLineComment_of_startsWith hline] at hnil
    exact absurd hnil hne
  · rw [stripLineComment_of_startsWith hline] at htake
    obtain ⟨endLine, more, raw', hmem⟩ := @exists_mem_statements_code start (number + 1)
      (p :: rest ++ [trim line]) (raw ++ [line]) depth' after
    rw [htake]
    exact ⟨_, hmem, hjoined endLine more raw'⟩
  · rw [stripLineComment_of_startsWith hline] at htake
    rw [htake]
    exact ⟨_, mem_cons_self, by simpa using hjoined number [] (raw ++ [line])⟩

/-- **A comment line** at a position that a code statement crosses is joined to code. -/
lemma exists_joined_of_crosses {held : List (Text × Nat)} (h : reading.Holds number held)
    (hstart : reading.StartsWithCode) (hline : startsWith "//" (trim line) = true)
    {before after : List Text} (hs : s ∈ reading.statements number (before ++ after))
    (hcode : s.isComment = false) (hle : s.line < number + before.length)
    (hlt : number + before.length ≤ s.endLine) :
    ∃ s' ∈ reading.statements number (before ++ line :: after),
      s'.isComment = false ∧ trim line <:+: s'.text := by
  induction before generalizing reading number held with
  | nil =>
    cases reading with
    | idle => exact absurd (le_line_of_idle hs) (by simpa using hle)
    | code start parts raw depth => exact exists_joined hstart hline after
    | comment start parts raw =>
      obtain ⟨-, part, rest, rfl, hpart⟩ := h
      exact absurd (le_line_of_comment hpart hs hcode) (by simpa using hle)
  | cons first before ih =>
    have hnumber : number + (first :: before).length = number + 1 + before.length := by
      rw [length_cons]
      omega
    rw [hnumber] at hle hlt
    rw [cons_append, statements_cons] at hs ⊢
    have hnext := hstart.step number first
    -- The statement that the first line completes ends there and crosses nothing behind it.
    rcases step_cases h first with (⟨hnone, hheld⟩ | ⟨done, hstep, -, hend⟩) | ⟨hstep, -⟩
    · rw [hnone] at hs ⊢
      exact ih hheld hnext hs hle hlt
    · rw [hstep] at hs hnext ⊢
      rcases mem_cons.1 hs with rfl | hs
      · omega
      · have hidle : Reading.idle.Holds (number + 1) [] := rfl
        obtain ⟨s', hs', hjoined⟩ := ih hidle hnext hs hle hlt
        exact ⟨s', mem_cons_of_mem _ hs', hjoined⟩
    · rw [hstep] at hs hnext ⊢
      exact ih h.succ hnext hs hle hlt

end Reading

/-- **Comment lines.**  A line that is only a `//` comment, put between two lines of a code
statement, becomes a part of a code statement, whatever it says. -/
theorem comment_line_joined {before after : List Text} {line : Text}
    (hline : startsWith "//" (trim line) = true) {s : Statement}
    (hs : s ∈ (Document.mk (before ++ after)).statements) (hcode : s.isComment = false)
    (hcrosses : s.Crosses before.length) :
    ∃ s' ∈ (Document.mk (before ++ line :: after)).statements,
      s'.isComment = false ∧ trim line <:+: s'.text := by
  have hidle : Reading.idle.Holds 1 [] := rfl
  obtain ⟨hle, hlt⟩ := hcrosses
  exact Reading.exists_joined_of_crosses hidle trivial hline hs hcode (by omega) (by omega)

/-- A comment that ends like a statement ends the call it is put into. -/
theorem comment_line_ends_call :
    ((Document.mk ["foo(", "a);"]).statements.filter (!·.isComment)).map Statement.text = ["foo( a);"] ∧
      ((Document.mk ["foo(", "// one);", "a);"]).statements.filter (!·.isComment)).map Statement.text =
        ["foo( // one);", "a);"] := by
  decide

/-- Quotes, parentheses and braces of a comment inside a call get into its text. -/
theorem comment_in_call_joined :
    ∃ s ∈ (Document.mk ["foo(", "  // it's (\x7b", "", "a);"]).statements,
      s.isComment = false ∧ "// it's (\x7b".toList <:+: s.text :=
  @comment_line_joined ["foo("] ["", "a);"] "  // it's (\x7b" (by decide) ⟨"foo( a);", 1, 3, ["foo(", "a);"]⟩
    (by decide) (by decide) (by decide)

end Restage.Java
