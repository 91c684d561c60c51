import Restage.Proofs.Conversion.Mentions

/-!
# Names that lines start with

A line of code may start by naming a class: it declares a class that extends another one, constructs
an object, throws an exception or calls a method.  `Usage.read?` reads such a name off the text of a
line, and a line is `Accounted` for by some mentions if all that can be read is the name of one of
them or no class at all.

Most lines start with words that leave no room for a name, which is seen by computing.  For the
others it matters how far a name can be from the start of its line: only plain text stands before
it, without brackets and equals signs (`read?_cases`).
-/

namespace Restage.Conversion

open Text Java TypeScript List Option

variable {d : Char} {r name : Text}

/-! ## Reading names off a line -/

/-- Reads what may stand before the construction of an object. -/
def constructionStart? (line : Text) : Option Text :=
  (literal? "return " line).or <| (literal? "await " line).or do
    let (_, r) ← word? ((literal? "const " line).getD line)
    literal? " = " r

/-- The class that a line names at its start. -/
def Usage.read? (line : Text) : Usage → Option Text
  | .base => do
    let (_, r) ← (literal? "export class " line).bind word?
    let (name, r) ← (literal? " extends " r).bind word?
    let _ ← literal? " \x7b" r
    some name
  | .constructed => ((constructionStart? line).bind constructed?).map (·.1)
  | .thrown => ((literal? "throw " line).bind constructed?).map (·.1)
  | .receiver method => do
    let (name, r) ← (literal? "await " line).bind word?
    let (called, r) ← (literal? "." r).bind word?
    let _ ← literal? "(" r
    if called = method then some name else none
  | _ => none

/-- The names that stand for something else than a class of the project. -/
def Usage.builtIn : Usage → List Text
  | .base | .thrown => ["Error"]
  | .receiver _ => ["page", "this", "expect"]
  | _ => []

/-- What a line names at its start is built in or among the mentions. -/
def Accounted (ms : List Mention) (line : Text) : Prop :=
  ∀ usage name, usage.read? line = some name →
    name ∈ usage.builtIn ∨ ∃ m ∈ ms, m.usage = usage ∧ m.name = name

variable {ms more : List Mention} {line : Text}

lemma Accounted.mono (h : Accounted ms line) (hsub : ms ⊆ more) :
    Accounted more line := by
  intro usage name hread
  rcases h usage name hread with hbuiltIn | ⟨m, hm, hsame⟩
  · exact .inl hbuiltIn
  · exact .inr ⟨m, hsub hm, hsame⟩

lemma accounted_of_none (h : ∀ usage : Usage, usage.read? line = none) :
    Accounted ms line := by
  intro usage name hread
  rw [h usage] at hread
  cases hread

/-- Most lines start in a way that leaves no room for a name; then all four readers fail by
computing. -/
lemma accounted_of_start (hbase : Usage.base.read? line = none)
    (hnew : Usage.constructed.read? line = none) (hthrown : Usage.thrown.read? line = none)
    (hreceiver : ∀ method, (Usage.receiver method).read? line = none) : Accounted ms line := by
  refine accounted_of_none fun usage => ?_
  cases usage with
  | base => exact hbase
  | constructed => exact hnew
  | thrown => exact hthrown
  | receiver method => exact hreceiver method
  | parameter | result | property | keywords | unwritten => rfl

/-! ## Constructions -/

variable {t w : Text} {usage : Usage}

lemma constructed?_eq_some (h : constructed? t = some (name, r)) :
    ∃ gap : Text, t = "new" ++ gap ++ name ++ "(" ++ r ∧ gap ≠ [] ∧ (∀ c ∈ gap, isBlank c = true) ∧
      isWordText name = true := by
  obtain ⟨⟨found, rest⟩, hfound, h⟩ := bind_eq_some_iff.1 h
  obtain ⟨r', hr', h⟩ := bind_eq_some_iff.1 h
  cases h
  obtain ⟨start, hstart, hword⟩ := bind_eq_some_iff.1 hfound
  obtain ⟨after, hnew, hgap⟩ := bind_eq_some_iff.1 hstart
  obtain ⟨gap, rfl, hne, hblank⟩ := someBlanks?_eq_some hgap
  obtain ⟨rfl, hname, -⟩ := word?_eq_some hword
  refine ⟨gap, ?_, hne, hblank, hname⟩
  rw [literal?_eq_some.1 hnew, literal?_eq_some.1 hr']
  simp

/-- A word that stands in a text. -/
structure WordIn (t w : Text) : Prop where
  word : isWordText w = true
  stands : w <:+: t

lemma WordIn.mono {u : Text} (h : WordIn t w) (hu : t <:+: u) : WordIn u w := ⟨h.word, h.stands.trans hu⟩

lemma wordIn_of_word? (h : word? t = some (w, r)) : WordIn t w :=
  ⟨isWordText_of_word? h, (word?_parts h).1.isInfix⟩

lemma constructed?_parts (h : constructed? t = some (name, r)) : WordIn t name ∧ r <:+ t := by
  obtain ⟨gap, rfl, -, -, hname⟩ := constructed?_eq_some h
  exact ⟨⟨hname, "new" ++ gap, "(" ++ r, by simp⟩, suffix_append _ _⟩

lemma constructed?_new (hname : isWordText name = true) (r : Text) :
    constructed? ("new " ++ name ++ "(" ++ r) = some (name, r) := by
  have hword : word? (name ++ '(' :: r) = some (name, '(' :: r) := by
    refine word?_append hname fun c hc => ?_
    cases hc
    decide
  obtain ⟨c, rest, rfl, hc⟩ := exists_cons_of_isWordText hname
  have hblanks : blanks (c :: rest ++ '(' :: r) = c :: rest ++ '(' :: r :=
    blanks_of_head (isBlank_eq_false_of_isWord hc) _
  have hstart : (literal? "new" ("new " ++ (c :: rest) ++ "(" ++ r)).bind someBlanks? =
      some (blanks (c :: rest ++ '(' :: r)) := by
    rw [append_assoc]
    rfl
  rw [constructed?, hstart, hblanks, bind_some, hword]
  rfl

lemma constructed?_eq_none (hw : isWordText w = true) (hd : isWord d = false)
    (hblank : isBlank d = false) : constructed? (w ++ d :: r) = none := by
  cases h : constructed? (w ++ d :: r) with
  | none => rfl
  | some found =>
    obtain ⟨gap, ht, hne, hgap, -⟩ := constructed?_eq_some h
    obtain ⟨b, rest, rfl⟩ := exists_cons_of_ne_nil hne
    have hb := hgap b mem_cons_self
    have hstop : isWord b = false := by
      by_contra hword
      rw [isBlank_eq_false_of_isWord (by simpa using hword)] at hb
      cases hb
    have hread := congrArg (dropWhile isWord) ht
    rw [dropWhile_append_of_pos (all_isWord hw), dropWhile_cons_of_neg (by simp [hd])] at hread
    simp only [append_assoc, cons_append] at hread
    rw [dropWhile_append_of_pos (all_isWord (by decide)),
      dropWhile_cons_of_neg (by simp [hstop])]
      at hread
    cases hread
    rw [hblank] at hb
    cases hb

/-! ## Lines up to their first bracket or equals sign -/

/-- A line that comes to a bracket. -/
def Bracketed (line : Text) : Prop :=
  ∃ start d rest, line = start ++ d :: rest ∧ Plain start ∧ (d = '(' ∨ d = '\x7b')

lemma bracketed_of_constructed? {line : Text} {found : Text × Text} (hw : Plain w)
    (hline : literal? w line = some t) (h : constructed? t = some found) : Bracketed line := by
  obtain ⟨gap, rfl, -, hgap, hname⟩ := constructed?_eq_some h
  refine ⟨w ++ ("new" ++ gap ++ found.1), '(', found.2, ?_, ?_, .inl rfl⟩
  · rw [literal?_eq_some.1 hline]
    simp
  · exact hw.append (((Plain.of_word (by decide)).append (.of_blanks hgap)).append (.of_word hname))

lemma read?_cases {line : Text} (h : usage.read? line = some name) :
    Bracketed line ∨ usage = .constructed ∧ ∃ start t rest, line = start ++ " = " ++ t ∧ Plain start ∧
      constructed? t = some (name, rest) := by
  cases usage with
  | base =>
    left
    obtain ⟨⟨declared, r⟩, hdeclared, h⟩ := bind_eq_some_iff.1 h
    obtain ⟨⟨base, r'⟩, hbase, h⟩ := bind_eq_some_iff.1 h
    obtain ⟨rest, hrest, -⟩ := bind_eq_some_iff.1 h
    obtain ⟨t, ht, hdeclared⟩ := bind_eq_some_iff.1 hdeclared
    obtain ⟨t', ht', hbase⟩ := bind_eq_some_iff.1 hbase
    obtain ⟨rfl, hdeclared, -⟩ := word?_eq_some hdeclared
    obtain ⟨rfl, hbase, -⟩ := word?_eq_some hbase
    refine ⟨"export class " ++ declared ++ " extends " ++ base ++ " ", '\x7b', rest, ?_, ?_, .inr rfl⟩
    · rw [literal?_eq_some.1 ht, literal?_eq_some.1 ht', literal?_eq_some.1 hrest]
      simp
    · have hstart : Plain ("export class " ++ declared) := .append (by decide) (.of_word hdeclared)
      exact ((hstart.append (by decide)).append (.of_word hbase)).append (by decide)
  | constructed =>
    obtain ⟨⟨found, rest⟩, hfound, h⟩ := map_eq_some_iff.1 h
    cases h
    obtain ⟨t, ht, hfound⟩ := bind_eq_some_iff.1 hfound
    rcases or_eq_some_iff.1 ht with ht | ⟨-, ht⟩
    · exact .inl (bracketed_of_constructed? (by decide) ht hfound)
    rcases or_eq_some_iff.1 ht with ht | ⟨-, ht⟩
    · exact .inl (bracketed_of_constructed? (by decide) ht hfound)
    obtain ⟨⟨x, r⟩, hx, hr⟩ := bind_eq_some_iff.1 ht
    obtain ⟨hcut, hword, -⟩ := word?_eq_some hx
    obtain rfl := literal?_eq_some.1 hr
    right
    refine ⟨rfl, ?_⟩
    cases hconst : literal? "const " line with
    | none =>
      rw [hconst, getD_none] at hcut
      exact ⟨x, t, rest, by simp [hcut], .of_word hword, hfound⟩
    | some r =>
      rw [hconst, getD_some] at hcut
      refine ⟨"const " ++ x, t, rest, ?_, .append (by decide) (.of_word hword), hfound⟩
      rw [literal?_eq_some.1 hconst, hcut]
      simp
  | thrown =>
    obtain ⟨found, hfound, -⟩ := map_eq_some_iff.1 h
    obtain ⟨t, ht, hfound⟩ := bind_eq_some_iff.1 hfound
    exact .inl (bracketed_of_constructed? (by decide) ht hfound)
  | receiver method =>
    left
    obtain ⟨⟨receiver, r⟩, hreceiver, h⟩ := bind_eq_some_iff.1 h
    obtain ⟨⟨called, r'⟩, hcalled, h⟩ := bind_eq_some_iff.1 h
    obtain ⟨rest, hrest, -⟩ := bind_eq_some_iff.1 h
    obtain ⟨t, ht, hreceiver⟩ := bind_eq_some_iff.1 hreceiver
    obtain ⟨t', ht', hcalled⟩ := bind_eq_some_iff.1 hcalled
    obtain ⟨rfl, hreceiver, -⟩ := word?_eq_some hreceiver
    obtain ⟨rfl, hcalled, -⟩ := word?_eq_some hcalled
    refine ⟨"await " ++ receiver ++ "." ++ called, '(', rest, ?_, ?_, .inl rfl⟩
    · rw [literal?_eq_some.1 ht, literal?_eq_some.1 ht', literal?_eq_some.1 hrest]
      simp
    · have hstart : Plain ("await " ++ receiver) := .append (by decide) (.of_word hreceiver)
      exact (hstart.append (by decide)).append (.of_word hcalled)
  | parameter | result | property | keywords | unwritten => cases h

lemma read?_assignment {before : Text} (hbefore : Plain before)
    (h : usage.read? (before ++ " = " ++ r) = some name) :
    usage = .constructed ∧ ∃ rest, constructed? r = some (name, rest) := by
  have hstop : ∀ {start : Text} (t : Text), Plain start →
      (start ++ " = " ++ t).dropWhile isPlain = "= " ++ t := by
    intro start t hstart
    have hcut : start ++ " = " ++ t = start ++ " " ++ ("= " ++ t) := by simp
    rw [hcut, (hstart.append (by decide)).dropWhile]
    rfl
  rcases read?_cases h with ⟨start, d, rest, hline, hstart, hd⟩ |
    ⟨rfl, start, t, rest, hline, hstart, hfound⟩
  · have hread := congrArg (dropWhile isPlain) hline
    rw [hstop r hbefore, hstart.dropWhile] at hread
    rcases hd with rfl | rfl <;> cases hread
  · have hread := congrArg (dropWhile isPlain) hline
    rw [hstop r hbefore, hstop t hstart, append_cancel_left_eq] at hread
    subst hread
    exact ⟨rfl, rest, hfound⟩

lemma read?_eq_none_of_word (hw : isWordText w = true) (hd : isWord d = false) (hblank : d ≠ ' ')
    (r : Text) (usage : Usage) : usage.read? (w ++ d :: r) = none := by
  have hword : word? (w ++ d :: r) = some (w, d :: r) := by
    refine word?_append hw fun c hc => ?_
    cases hc
    exact hd
  have hnone : ∀ k t : Text, isWordText k = true → literal? (k ++ ' ' :: t) (w ++ d :: r) = none := by
    intro k t hk
    refine eq_none_iff_forall_ne_some.2 fun rest hrest => hblank ?_
    have hread := congrArg (dropWhile isWord) (literal?_eq_some.1 hrest)
    rw [dropWhile_append_of_pos (all_isWord hw), dropWhile_cons_of_neg (by simp [hd]),
      append_assoc, dropWhile_append_of_pos (all_isWord hk)] at hread
    cases hread
    rfl
  have hexport : literal? "export class " (w ++ d :: r) = none := hnone "export" "class " (by decide)
  have hreturn : literal? "return " (w ++ d :: r) = none := hnone "return" [] (by decide)
  have hawait : literal? "await " (w ++ d :: r) = none := hnone "await" [] (by decide)
  have hconst : literal? "const " (w ++ d :: r) = none := hnone "const" [] (by decide)
  have hthrow : literal? "throw " (w ++ d :: r) = none := hnone "throw" [] (by decide)
  have hequals : literal? " = " (d :: r) = none := by
    refine eq_none_iff_forall_ne_some.2 fun rest hrest => hblank ?_
    cases literal?_eq_some.1 hrest
    rfl
  cases usage with
  | base =>
    rw [Usage.read?, hexport]
    rfl
  | constructed =>
    have hstart : constructionStart? (w ++ d :: r) = none := by
      rw [constructionStart?, hreturn, hawait, hconst, getD_none, hword]
      exact hequals
    rw [Usage.read?, hstart]
    rfl
  | thrown =>
    rw [Usage.read?, hthrow]
    rfl
  | receiver method =>
    rw [Usage.read?, hawait]
    rfl
  | parameter | result | property | keywords | unwritten => rfl

lemma read?_eq_none_of_modifier {k : Text} (hk : k ∈ (["async", "static", "readonly"] : List Text))
    (hname : isWordText name = true) (r : Text) (usage : Usage) :
    usage.read? (k ++ " " ++ name ++ r) = none := by
  obtain ⟨c, rest, rfl, hc⟩ := exists_cons_of_isWordText hname
  have hequals : ∀ t, literal? " = " (' ' :: c :: t) = none := by
    intro t
    refine eq_none_iff_forall_ne_some.2 fun u hu => ?_
    cases literal?_eq_some.1 hu
    cases hc
  have hstart : constructionStart? (k ++ " " ++ (c :: rest) ++ r) = none := by
    rw [mem_cons, mem_cons, mem_singleton] at hk
    rcases hk with rfl | rfl | rfl <;> exact hequals (rest ++ r)
  cases usage with
  | constructed =>
    rw [Usage.read?, hstart]
    rfl
  | base | thrown | receiver =>
    rw [mem_cons, mem_cons, mem_singleton] at hk
    rcases hk with rfl | rfl | rfl <;> rfl
  | parameter | result | property | keywords | unwritten => rfl

/-! ## Calls -/

lemma read?_call (hw : isWordText w = true)
    (h : usage.read? ("await " ++ w ++ "." ++ r) = some name) :
    name = w ∧ ∃ method rest, usage = .receiver method ∧ r = method ++ "(" ++ rest ∧
      isWordText method = true := by
  have hword : word? (w ++ '.' :: r) = some (w, '.' :: r) := by
    refine word?_append hw fun c hc => ?_
    cases hc
    decide
  have hcut : "await " ++ w ++ "." ++ r = "await " ++ (w ++ '.' :: r) := by simp
  have hawait : literal? "await " ("await " ++ w ++ "." ++ r) = some (w ++ '.' :: r) :=
    literal?_eq_some.2 hcut
  cases usage with
  | base =>
    cases h
  | constructed =>
    have hstart : constructionStart? ("await " ++ w ++ "." ++ r) = some (w ++ '.' :: r) := by
      rw [constructionStart?, hawait]
      rfl
    rw [Usage.read?, hstart, bind_some, constructed?_eq_none hw (by decide) (by decide)] at h
    cases h
  | thrown =>
    cases h
  | receiver method =>
    rw [Usage.read?, hawait, bind_some, hword] at h
    obtain ⟨_, ⟨⟩, h⟩ := bind_eq_some_iff.1 h
    obtain ⟨⟨called, r'⟩, hcalled, h⟩ := bind_eq_some_iff.1 h
    obtain ⟨rest, hrest, h⟩ := bind_eq_some_iff.1 h
    split_ifs at h with hmethod
    cases h
    subst hmethod
    obtain ⟨t, ht, hcalled⟩ := bind_eq_some_iff.1 hcalled
    obtain ⟨rfl, hmethod, -⟩ := word?_eq_some hcalled
    cases literal?_eq_some.1 ht
    refine ⟨rfl, called, rest, rfl, ?_, hmethod⟩
    rw [literal?_eq_some.1 hrest]
    simp
  | parameter | result | property | keywords | unwritten => cases h

end Restage.Conversion
