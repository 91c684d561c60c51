import Restage.Java.Annotation
import Restage.Java.Call
import Restage.Proofs.Text.Readers
import Restage.Proofs.Text.Trimming

/-!
# What the shapes of calls say about a text

The shapes of statements are read piece by piece, some of the pieces from the right.  Here each
reader of a call is turned into one equation: the text is the callee, a parenthesis, the arguments,
a parenthesis, blanks, a semicolon and at most a line feed.
-/

namespace Restage.Text

open List

/-! ## Ends -/

lemma dropFinal?_eq_some_iff {c : Char} {t r : Text} : dropFinal? c t = some r ↔ t = r ++ [c] := by
  rw [dropFinal?]
  refine ⟨fun h => ?_, ?_⟩
  · split_ifs at h with hlast
    cases h
    exact (dropLast_append_getLast? c hlast).symm
  · rintro rfl
    rw [if_pos getLast?_concat, dropLast_concat]

lemma atEnd_iff {t : Text} : atEnd t = true ↔ t = [] ∨ t = ['\n'] := by
  simp [atEnd]

lemma dropFinalNewline_eq (t : Text) : ∃ ending, atEnd ending = true ∧ t = dropFinalNewline t ++ ending := by
  rw [dropFinalNewline]
  cases h : dropFinal? '\n' t with
  | none => exact ⟨[], rfl, (append_nil t).symm⟩
  | some r => exact ⟨['\n'], rfl, dropFinal?_eq_some_iff.1 h⟩

lemma beforeSemicolon?_eq_some {t body : Text} (h : beforeSemicolon? t = some body) :
    ∃ gap ending : Text, t = body ++ gap ++ ';' :: ending ∧ (∀ c ∈ gap, isBlank c = true) ∧
      atEnd ending = true := by
  obtain ⟨r, hr, rfl⟩ := Option.map_eq_some_iff.1 h
  obtain ⟨ending, hending, ht⟩ := dropFinalNewline_eq t
  obtain ⟨gap, hgap, hblank⟩ := trimRight_eq r
  refine ⟨gap, ending, ?_, hblank, hending⟩
  rw [← hgap, ht, dropFinal?_eq_some_iff.1 hr]
  simp

lemma callArguments?_eq_some {t args : Text} (h : callArguments? t = some args) :
    ∃ gap ending : Text, t = args ++ ')' :: (gap ++ ';' :: ending) ∧
      (∀ c ∈ gap, isBlank c = true) ∧ atEnd ending = true := by
  obtain ⟨body, hbody, hclose⟩ := Option.bind_eq_some_iff.1 (Option.filter_eq_some_iff.1 h).1
  obtain ⟨gap, ending, ht, hgap, hending⟩ := beforeSemicolon?_eq_some hbody
  refine ⟨gap, ending, ?_, hgap, hending⟩
  rw [ht, dropFinal?_eq_some_iff.1 hclose]
  simp

/-! ## Cuts -/

lemma eq_of_mem_cuts {c : Char} {t a b : Text} (h : (a, b) ∈ cuts c t) : t = a ++ c :: b := by
  induction t generalizing a with
  | nil => cases h
  | cons d r ih =>
    have hlater : (a, b) ∈ (cuts c r).map (fun cut => (d :: cut.1, cut.2)) →
        d :: r = a ++ c :: b := by
      intro hmem
      obtain ⟨⟨before, after⟩, hcut, hpair⟩ := mem_map.1 hmem
      cases hpair
      rw [ih hcut]
      rfl
    rw [cuts] at h
    split_ifs at h with hd
    · rcases mem_cons.1 h with h | h
      · cases h
        rw [hd]
        rfl
      · exact hlater h
    · exact hlater h

end Restage.Text

namespace Restage.Java

open Text List Option

variable {args name t : Text} {names : List Text}

/-! ## Dotted names -/

lemma isQuote_of_isDotted {c : Char} (h : isDotted c = true) : isQuote c = false := by
  refine Bool.eq_false_iff.2 fun hquote => ?_
  simp only [isQuote, Bool.or_eq_true, beq_iff_eq] at hquote
  rcases hquote with (rfl | rfl) | rfl <;> exact absurd h (by decide)

lemma trim_of_dotted (h : ∀ c ∈ t, isDotted c = true) : trim t = t := by
  have hblank : ∀ c ∈ t, isBlank c = false := by
    intro c hc
    rcases Bool.or_eq_true_iff.1 (h c hc) with hword | hdot
    · exact isBlank_eq_false_of_isWord hword
    · rw [beq_iff_eq.1 hdot]
      decide
  exact trim_eq_self (fun c hc => hblank c (mem_of_mem_head? hc))
    fun c hc => hblank c (mem_of_mem_getLast? hc)

/-! ## Calls -/

lemma calledName?_eq_some {r : Text} (h : calledName? names t = some (name, r)) : name ∈ names ∧ t = name ++ '(' :: r := by
  obtain ⟨found, hfound, hread⟩ := exists_of_findSome?_eq_some h
  obtain ⟨rest, hrest, hpair⟩ := map_eq_some_iff.1 hread
  cases hpair
  refine ⟨hfound, ?_⟩
  rw [literal?_eq_some.1 hrest]
  exact append_assoc name ['('] r

lemma calledName?_append (hnames : ∀ name ∈ names, '(' ∉ name) (hname : name ∈ names) (r : Text) : calledName? names (name ++ '(' :: r) = some (name, r) := by
  cases hfound : calledName? names (name ++ '(' :: r) with
  | none =>
    have hread := findSome?_eq_none_iff.1 hfound name hname
    have hliteral : literal? (name ++ "(") (name ++ '(' :: r) = some r :=
      literal?_eq_some.2 (append_assoc name ['('] r).symm
    rw [hliteral] at hread
    cases hread
  | some found =>
    obtain ⟨hmem, heq⟩ := calledName?_eq_some hfound
    have hcut := cutFirst?_append (hnames _ hname) r
    rw [heq, cutFirst?_append (hnames _ hmem)] at hcut
    exact hcut

lemma receiverCall?_eq_some {arguments? : Text → Option Text} {call : ReceiverCall}
    (h : receiverCall? names arguments? t = some call) :
    ∃ rest, t = call.receiver ++ '.' :: (call.method ++ '(' :: rest) ∧ call.method ∈ names ∧
      arguments? rest = some call.arguments := by
  obtain ⟨⟨receiver, after⟩, hcut, hread⟩ := exists_of_findSome?_eq_some h
  dsimp only at hread
  split_ifs at hread
  obtain ⟨⟨method, rest⟩, hmethod, hread⟩ := bind_eq_some_iff.1 hread
  obtain ⟨args, harguments, hcall⟩ := bind_eq_some_iff.1 hread
  cases hcall
  obtain ⟨hmem, rfl⟩ := calledName?_eq_some hmethod
  exact ⟨rest, eq_of_mem_cuts hcut, hmem, harguments⟩

lemma flatArguments?_eq_some_iff {rest : Text} :
    flatArguments? t = some (args, rest) ↔
      t = args ++ ')' :: rest ∧ ∀ c ∈ args, isParenthesis c = false := by
  rw [flatArguments?]
  have hsplit : t.takeWhile (!isParenthesis ·) ++ t.dropWhile (!isParenthesis ·) = t :=
    takeWhile_append_dropWhile
  constructor
  · intro h
    split at h
    next r hdrop =>
      cases h
      rw [hdrop] at hsplit
      exact ⟨hsplit.symm, fun c hc => by simpa using mem_takeWhile_imp hc⟩
    · cases h
  · rintro ⟨rfl, hflat⟩
    have hpos : ∀ c ∈ args, (!isParenthesis c) = true := fun c hc => by rw [hflat c hc]; rfl
    rw [takeWhile_append_of_pos hpos, dropWhile_append_of_pos hpos]
    simp [isParenthesis]

lemma flatStatement?_eq_some (h : flatStatement? t = some args) :
    ∃ gap ending : Text, t = args ++ ')' :: (gap ++ ';' :: ending) ∧
      (∀ c ∈ gap, isBlank c = true) ∧ atEnd ending = true ∧
      ∀ c ∈ args, isParenthesis c = false := by
  obtain ⟨⟨found, rest⟩, hflat, h⟩ := bind_eq_some_iff.1 h
  obtain ⟨ending, hsemicolon, h⟩ := bind_eq_some_iff.1 h
  split_ifs at h with hend
  cases h
  obtain ⟨rfl, hparentheses⟩ := flatArguments?_eq_some_iff.1 hflat
  obtain ⟨gap, hgap, hblank⟩ := blanks_eq rest
  refine ⟨gap, ending, ?_, hblank, hend, hparentheses⟩
  rw [literal?_eq_some.1 hsemicolon] at hgap
  rw [hgap]
  rfl

end Restage.Java
