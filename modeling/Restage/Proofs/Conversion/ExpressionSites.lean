import Restage.Conversion.Expression
import Restage.Proofs.Java.CallShapes
import Restage.Proofs.Text.Scanning

/-!
# What an expression changes in a text

Four exchanges go over an expression one after the other, and they take no notice of literals.  A
`Site` is a part of a text that one of them changes: the read of an element field, a query of the
driver, or a comparison by `equals`.  The read of an element that is searched on the spot is a
fourth; a text in which there is none is said to have `NoSearchRead`.

That a text without a site stays as it is goes without saying.  The other direction does not, since
a later exchange goes over what an earlier one has written and could undo it.  It cannot: the first
two exchanges add a `w` to the text and the last one adds an equals sign, and no exchange takes one
away; and what the third one writes ends otherwise than what it reads (`expression_eq_self_iff`).
-/

namespace Restage.Conversion

open Text Java List Option

variable {r literal read new name : Text}

/-! ## Sites -/

/-- The read of an element field by its name. -/
def FieldRead (name read : Text) : Prop :=
  ∃ target action args, read = target ++ '.' :: (action ++ '(' :: (args ++ [')'])) ∧
    (target = name ∨ target = "this." ++ name) ∧ isName name = true ∧ action ∈ reads.map (·.1) ∧
    ∀ c ∈ args, isParenthesis c = false

/-- What can be compared by `equals` inside an expression: a word, of which the last character will
do, a call of one without arguments, or a string literal. -/
def IsReceiver (receiver : Text) : Prop :=
  (∃ c, isWord c = true ∧ (receiver = [c] ∨ receiver = [c, '(', ')'])) ∨ isString receiver = true

/-- A comparison by `equals`. -/
def equalsCall (receiver argument : Text) : Text := receiver ++ ".equals(" ++ argument ++ ")"

def driverReferences : List Text := ["driver", "getDriver()"]

/-- The queries of the driver that have a counterpart. -/
def driverQueries : List Text := [".getTitle()", ".getCurrentUrl()"]

/-- The read of a known element field stands in a text, and not behind a name or a dot. -/
def ReadSite (ctx : Context) (t : Text) : Prop :=
  ∃ before name read after, t = before ++ (read ++ after) ∧ (∀ c ∈ before.getLast?, isDotted c = false) ∧
    FieldRead name read ∧ (accessorCall? ctx name).isSome = true

/-- A query of the driver stands in a text. -/
def QuerySite (query t : Text) : Prop := ∃ reference ∈ driverReferences, reference ++ query <:+: t

/-- A comparison by `equals` stands in a text. -/
def EqualsSite (t : Text) : Prop :=
  ∃ receiver argument, IsReceiver receiver ∧ (∀ c ∈ argument, isParenthesis c = false) ∧
    equalsCall receiver argument <:+: t

/-- Something that an expression changes stands in a text. -/
def Site (ctx : Context) (t : Text) : Prop :=
  ReadSite ctx t ∨ (∃ query ∈ driverQueries, QuerySite query t) ∨ EqualsSite t

/-- No search on the driver by a literal is read in a text. -/
def NoSearchRead (t : Text) : Prop := ∀ s r, s <:+ t → literalSearch? s = some r → readEnd? r = none

/-! ## Queries -/

variable {t receiver : Text}

lemma driver?_eq_some (h : driver? t = some r) :
    ∃ start reference, (start = [] ∨ start = "this.".toList) ∧ reference ∈ driverReferences ∧
      t = start ++ (reference ++ r) := by
  have hreference : ∀ u, (literal? "getDriver()" u).or (literal? "driver" u) = some r →
      ∃ reference ∈ driverReferences, u = reference ++ r := by
    intro u hu
    rcases or_eq_some_iff.1 hu with hu | ⟨-, hu⟩
    · exact ⟨_, by decide, literal?_eq_some.1 hu⟩
    · exact ⟨_, by decide, literal?_eq_some.1 hu⟩
  rw [driver?] at h
  cases hthis : literal? "this." t with
  | none =>
    rw [hthis] at h
    obtain ⟨reference, hmem, ht⟩ := hreference _ h
    exact ⟨[], reference, .inl rfl, hmem, ht⟩
  | some u =>
    rw [hthis] at h
    obtain ⟨reference, hmem, hu⟩ := hreference _ h
    refine ⟨_, reference, .inr rfl, hmem, ?_⟩
    rw [← hu]
    exact literal?_eq_some.1 hthis

lemma driver?_append {reference : Text} (h : reference ∈ driverReferences) (r : Text) :
    driver? (reference ++ r) = some r := by
  rw [driverReferences, mem_cons, mem_singleton] at h
  rcases h with rfl | rfl <;> rfl

variable {query counterpart rest argument action args target : Text} {before : Option Char}
  {found : Read} {c : Char} {ctx : Context}

lemma convertQuery?_eq_some (h : convertQuery? query counterpart t = some (new, rest)) :
    new = counterpart ∧ ∃ start reference, (start = [] ∨ start = "this.".toList) ∧
      reference ∈ driverReferences ∧ t = start ++ (reference ++ query) ++ rest := by
  obtain ⟨r, hr, hpair⟩ := map_eq_some_iff.1 h
  cases hpair
  obtain ⟨u, hu, hquery⟩ := bind_eq_some_iff.1 hr
  obtain ⟨start, reference, hstart, hmem, ht⟩ := driver?_eq_some hu
  refine ⟨rfl, start, reference, hstart, hmem, ?_⟩
  rw [ht, literal?_eq_some.1 hquery]
  simp

lemma QuerySite.exists_found (h : QuerySite query t) (counterpart : Text) :
    ∃ p old rest, Found (fun _ => convertQuery? query counterpart) none t p old rest counterpart := by
  obtain ⟨reference, hmem, p, rest, rfl⟩ := h
  refine ⟨p, reference ++ query, rest, by simp, ?_, ?_⟩
  · rw [driverReferences, mem_cons, mem_singleton] at hmem
    rcases hmem with rfl | rfl <;> exact fun h => by cases h
  · rw [append_assoc, convertQuery?, driver?_append hmem, bind_some, literal?_append]
    rfl

/-! ## Comparisons -/

lemma string?_of_isString (h : isString literal = true) :
    string? literal = some (literal, []) := by
  rw [isString] at h
  split at h
  next found rest hread =>
    obtain rfl := isEmpty_iff.1 h
    have hwhole := (string?_eq_some hread).1
    rw [append_nil] at hwhole
    rwa [← hwhole] at hread
  · cases h

lemma convertEquals?_eq_some (h : convertEquals? t = some (new, rest)) :
    ∃ start receiver argument, IsReceiver receiver ∧ (∀ c ∈ argument, isParenthesis c = false) ∧
      t = start ++ equalsCall receiver argument ++ rest ∧
      new = start ++ receiver ++ " === " ++ argument := by
  obtain ⟨r, hr, h⟩ := bind_eq_some_iff.1 h
  obtain ⟨after, hafter, h⟩ := bind_eq_some_iff.1 h
  obtain ⟨⟨argument, _⟩, hflat, h⟩ := bind_eq_some_iff.1 h
  cases h
  have hrest : r = ".equals(" ++ after := literal?_eq_some.1 hafter
  obtain ⟨hclose, hargument⟩ := flatArguments?_eq_some_iff.1 hflat
  obtain ⟨start, receiver, hreceiver, ht⟩ : ∃ start receiver, IsReceiver receiver ∧
      t = start ++ receiver ++ r := by
    rcases or_eq_some_iff.1 hr with hr | ⟨-, hr⟩
    · obtain ⟨⟨word, u⟩, hword, hu⟩ := map_eq_some_iff.1 hr
      obtain ⟨rfl, hall, -⟩ := word?_eq_some hword
      obtain ⟨before, c, rfl⟩ := eq_nil_or_concat' word |>.resolve_left (by rintro rfl; cases hall)
      have hc : isWord c = true := all_isWord hall c (by simp)
      dsimp only at hu
      cases hcall : literal? "()" u with
      | none =>
        rw [hcall, getD_none] at hu
        exact ⟨before, [c], .inl ⟨c, hc, .inl rfl⟩, by rw [hu]⟩
      | some v =>
        rw [hcall, getD_some] at hu
        refine ⟨before, [c, '(', ')'], .inl ⟨c, hc, .inr rfl⟩, ?_⟩
        rw [literal?_eq_some.1 hcall, hu]
        simp
    · obtain ⟨⟨literal, _⟩, hread, hpair⟩ := map_eq_some_iff.1 hr
      cases hpair
      obtain ⟨ht, hliteral⟩ := string?_eq_some hread
      refine ⟨[], literal, .inr ?_, by simpa using ht⟩
      have hwhole := hliteral []
      rw [append_nil] at hwhole
      rw [isString, hwhole]
      rfl
  refine ⟨start, receiver, argument, hreceiver, hargument, ?_, ?_⟩
  · rw [ht, hrest, hclose, equalsCall]
    simp
  · rw [ht, consumed_append]

/-- A comparison is found if its receiver is read. -/
lemma convertEquals?_of_read (hargument : ∀ c ∈ argument, isParenthesis c = false)
    (hread : ((word? (equalsCall receiver argument ++ rest)).map fun (_, r) => (literal? "()" r).getD r).or ((string? (equalsCall receiver argument ++ rest)).map (·.2)) = some (".equals(" ++ (argument ++ ')' :: rest)))
    :
    convertEquals? (equalsCall receiver argument ++ rest) =
      some (receiver ++ " === " ++ argument, rest) := by
  have hflat : flatArguments? (argument ++ ')' :: rest) = some (argument, rest) :=
    flatArguments?_eq_some_iff.2 ⟨rfl, hargument⟩
  have hcut : equalsCall receiver argument ++ rest =
      receiver ++ (".equals(" ++ (argument ++ ')' :: rest)) := by simp [equalsCall]
  rw [convertEquals?, hread, bind_eq_bind, bind_some, literal?_append,
    bind_eq_bind, bind_some, hflat, hcut, consumed_append]
  rfl

lemma convertEquals?_word {word : Text} (hword : isWordText word = true)
    (hargument : ∀ c ∈ argument, isParenthesis c = false) (rest : Text) :
    convertEquals? (equalsCall word argument ++ rest) = some (word ++ " === " ++ argument, rest) := by
  have hcut : equalsCall word argument ++ rest = word ++ (".equals(" ++ (argument ++ ')' :: rest)) := by
    simp [equalsCall]
  refine convertEquals?_of_read hargument ?_
  rw [hcut, word?_append hword (by rintro d ⟨⟩; decide)]
  rfl

lemma convertEquals?_string (hliteral : isString literal = true)
    (hargument : ∀ c ∈ argument, isParenthesis c = false) (rest : Text) :
    convertEquals? (equalsCall literal argument ++ rest) = some (literal ++ " === " ++ argument, rest) := by
  have hcut : equalsCall literal argument ++ rest = literal ++ (".equals(" ++ (argument ++ ')' :: rest)) := by
    simp [equalsCall]
  have hwhole := string?_of_isString hliteral
  have hnone : word? (literal ++ (".equals(" ++ (argument ++ ')' :: rest))) = none := by
    rw [string?.eq_def] at hwhole
    split at hwhole
    · rfl
    · cases hwhole
  refine convertEquals?_of_read hargument ?_
  rw [hcut, hnone, (string?_eq_some hwhole).2]
  rfl

lemma convertEquals?_append (hreceiver : IsReceiver receiver)
    (hargument : ∀ c ∈ argument, isParenthesis c = false) (rest : Text) :
    convertEquals? (equalsCall receiver argument ++ rest) =
      some (receiver ++ " === " ++ argument, rest) := by
  rcases hreceiver with ⟨c, hc, rfl | rfl⟩ | hstring
  · exact convertEquals?_word (by simp [isWordText, hc]) hargument rest
  · have hcut : equalsCall [c, '(', ')'] argument ++ rest =
        [c] ++ ("().equals(" ++ (argument ++ ')' :: rest)) := by simp [equalsCall]
    refine convertEquals?_of_read hargument ?_
    rw [hcut, word?_append (by simp [isWordText, hc]) (by rintro d ⟨⟩; decide)]
    rfl
  · exact convertEquals?_string hstring hargument rest

/-! ## Reads -/

lemma readEnd?_eq_some (h : readEnd? t = some (action, args, rest)) :
    t = '.' :: (action ++ '(' :: (args ++ ')' :: rest)) ∧ action ∈ reads.map (·.1) ∧
      ∀ c ∈ args, isParenthesis c = false := by
  obtain ⟨r, hdot, h⟩ := bind_eq_some_iff.1 h
  obtain ⟨⟨name, u⟩, hname, h⟩ := bind_eq_some_iff.1 h
  obtain ⟨⟨found, v⟩, hflat, h⟩ := bind_eq_some_iff.1 h
  cases h
  obtain ⟨hmem, hr⟩ := calledName?_eq_some hname
  obtain ⟨hu, hflat⟩ := flatArguments?_eq_some_iff.1 hflat
  have ht : t = '.' :: r := literal?_eq_some.1 hdot
  exact ⟨by rw [ht, hr, hu], hmem, hflat⟩

lemma readEnd?_cons (haction : action ∈ reads.map (·.1)) (hflat : ∀ c ∈ args, isParenthesis c = false)
    (rest : Text) :
    readEnd? ('.' :: (action ++ '(' :: (args ++ ')' :: rest))) = some (action, args, rest) := by
  have hdot : ∀ r : Text, literal? "." ('.' :: r) = some r := fun r => literal?_append "." r
  rw [readEnd?, hdot, bind_eq_bind, bind_some, calledName?_append (by decide) haction,
    bind_eq_bind, bind_some]
  dsimp only
  rw [flatArguments?_eq_some_iff.2 ⟨rfl, hflat⟩]
  rfl

/-- A search on the driver is a call, and then a literal with two parentheses behind it. -/
lemma literalSearch?_eq_some (h : literalSearch? t = some r) :
    ∃ start reference inner literal gap : Text, (start = [] ∨ start = "this.".toList) ∧
      reference ∈ driverReferences ∧
      t = start ++ (reference ++ (".findElement(" ++ (inner ++ (literal ++ (')' :: gap ++ ')' :: r))))) ∧
      (∀ c ∈ inner, isBlank c = true ∨ isDotted c = true ∨ c = '(') ∧ (∀ c ∈ gap, isBlank c = true) ∧
      isString literal = true := by
  obtain ⟨a, hopening, h⟩ := bind_eq_some_iff.1 h
  obtain ⟨⟨method, b⟩, hmethod, h⟩ := bind_eq_some_iff.1 h
  obtain ⟨⟨literal, c⟩, hliteral, h⟩ := bind_eq_some_iff.1 h
  obtain ⟨d, hclose, hlast⟩ := bind_eq_some_iff.1 h
  obtain ⟨u, hdriver, hfind⟩ := bind_eq_some_iff.1 hopening
  obtain ⟨⟨_, e⟩, hnamed, hbehind⟩ := bind_eq_some_iff.1 hmethod
  obtain ⟨f, hparenthesis, hpair⟩ := bind_eq_some_iff.1 hbehind
  cases hpair
  obtain ⟨g, hby, hword⟩ := bind_eq_some_iff.1 hnamed
  obtain ⟨start, reference, hstart, hreference, ht⟩ := driver?_eq_some hdriver
  obtain ⟨gap, hgap, hblank⟩ := blanks_eq a
  obtain ⟨gap', hgap', hblank'⟩ := blanks_eq d
  obtain ⟨hb, hread⟩ := string?_eq_some hliteral
  have hstring : isString literal = true := by
    have hwhole := hread []
    rw [append_nil] at hwhole
    rw [isString, hwhole]
    rfl
  refine ⟨start, reference, gap ++ ("By." ++ (method ++ "(")), literal, gap', hstart, hreference, ?_, ?_,
    hblank', hstring⟩
  · have hc : c = ')' :: d := literal?_eq_some.1 hclose
    have hd : blanks d = ')' :: r := literal?_eq_some.1 hlast
    rw [literal?_eq_some.1 hby, (word?_eq_some hword).1, literal?_eq_some.1 hparenthesis, hb, hc, hgap', hd] at hgap
    rw [ht, literal?_eq_some.1 hfind, hgap]
    simp
  · intro c hc
    simp only [mem_append] at hc
    rcases hc with hc | hc | hc | hc
    · exact .inl (hblank c hc)
    · have hall : ∀ c ∈ ("By." : Text), isDotted c = true := by decide
      exact .inr (.inl (hall c hc))
    · refine .inr (.inl ?_)
      rw [isDotted, all_isWord (isWordText_of_word? hword) c hc]
      rfl
    · exact .inr (.inr (mem_singleton.1 hc))

/-- A read that is found has a field for its target, or a search. -/
lemma read?_target_cases (h : read? before t = some (found, rest)) :
    (∀ c ∈ before, isDotted c = false) ∧
      t = (found.target ++ '.' :: (found.action ++ '(' :: (found.arguments ++ [')']))) ++ rest ∧
      found.action ∈ reads.map (·.1) ∧ (∀ c ∈ found.arguments, isParenthesis c = false) ∧
      ((∃ name, isName name = true ∧ (found.target = name ∨ found.target = "this." ++ name)) ∨
        ∃ r, literalSearch? t = some r ∧ t = found.target ++ r ∧ (readEnd? r).isSome = true) := by
  rw [read?] at h
  split_ifs at h with hbefore
  have hstart : ∀ c ∈ before, isDotted c = false := by
    intro c hc
    rw [mem_def.1 hc] at hbefore
    exact Bool.eq_false_iff.2 hbefore
  obtain ⟨r, hr, h⟩ := exists_of_findSome?_eq_some h
  obtain ⟨⟨action, args, _⟩, hend, h⟩ := bind_eq_some_iff.1 h
  cases h
  obtain ⟨hr', haction, hflat⟩ := readEnd?_eq_some hend
  obtain ⟨target, ht, htarget⟩ : ∃ target, t = target ++ r ∧
      ((∃ name, isName name = true ∧ (target = name ∨ target = "this." ++ name)) ∨ literalSearch? t = some r) := by
    simp only [targetEnds, mem_append, mem_toList] at hr
    rcases hr with (hr | hr) | hr
    · obtain ⟨⟨name, v⟩, hfield, hv⟩ := map_eq_some_iff.1 hr
      obtain ⟨u, hthis, hname⟩ := bind_eq_some_iff.1 hfield
      obtain ⟨rfl, hname, -⟩ := name?_eq_some_iff.1 hname
      refine ⟨_, ?_, .inl ⟨name, hname, .inr rfl⟩⟩
      rw [literal?_eq_some.1 hthis, append_assoc, ← hv]
    · obtain ⟨⟨name, v⟩, hname, hv⟩ := map_eq_some_iff.1 hr
      obtain ⟨rfl, hname, -⟩ := name?_eq_some_iff.1 hname
      exact ⟨name, by rw [← hv], .inl ⟨name, hname, .inl rfl⟩⟩
    · obtain ⟨start, reference, inner, literal, gap, -, -, ht, -⟩ := literalSearch?_eq_some hr
      refine ⟨start ++ (reference ++ (".findElement(" ++ (inner ++ (literal ++ (')' :: gap ++ [')']))))), ?_, .inr hr⟩
      rw [ht]
      simp
  have hconsumed : consumed t r = target := by rw [ht, consumed_append]
  rw [hconsumed]
  refine ⟨hstart, by rw [ht, hr']; simp, haction, hflat, htarget.imp_right fun hsearch => ?_⟩
  exact ⟨r, hsearch, ht, by rw [hend]; rfl⟩

/-- A read that is found has a field for its target, unless it is a search. -/
lemma read?_eq_some (hsearch : ∀ r, literalSearch? t = some r → readEnd? r = none)
    (h : read? before t = some (found, rest)) :
    (∀ c ∈ before, isDotted c = false) ∧
      t = (found.target ++ '.' :: (found.action ++ '(' :: (found.arguments ++ [')']))) ++ rest ∧
      found.action ∈ reads.map (·.1) ∧ (∀ c ∈ found.arguments, isParenthesis c = false) ∧
      ∃ name, isName name = true ∧ (found.target = name ∨ found.target = "this." ++ name) := by
  obtain ⟨hbefore, ht, haction, hflat, hfield | ⟨r, hr, -, hend⟩⟩ := read?_target_cases h
  · exact ⟨hbefore, ht, haction, hflat, hfield⟩
  · rw [hsearch r hr] at hend
    cases hend

lemma not_mem_of_isName (hname : isName name = true) (hc : isWord c = false) : c ∉ name := by
  intro hmem
  rw [isWord_of_mem_name hname c hmem] at hc
  cases hc

/-- The read of a field is found where it stands, unless a name goes on there. -/
lemma read?_append (hbefore : ∀ c ∈ before, isDotted c = false) (hname : isName name = true)
    (htarget : target = name ∨ target = "this." ++ name) (haction : action ∈ reads.map (·.1))
    (hflat : ∀ c ∈ args, isParenthesis c = false) (rest : Text) :
    read? before (target ++ '.' :: (action ++ '(' :: (args ++ ')' :: rest))) =
      some (⟨target, action, args⟩, rest) := by
  have hdotted : ¬before.any isDotted = true := by
    cases before with
    | none => simp
    | some c => simpa using hbefore c rfl
  have hend := readEnd?_cons haction hflat rest
  obtain ⟨u, hu⟩ : ∃ u, u = '.' :: (action ++ '(' :: (args ++ ')' :: rest)) := ⟨_, rfl⟩
  rw [← hu] at hend ⊢
  have hread : name? (name ++ u) = some (name, u) :=
    name?_eq_some_iff.2 ⟨rfl, hname, by rw [hu]; rintro c ⟨⟩; decide⟩
  rw [read?, if_neg hdotted]
  rcases htarget with rfl | rfl
  · -- A field may be called `this`; what follows the dot is then the name of the read.
    have hfirst : ∀ r ∈ ((literal? "this." (target ++ u)).bind name?).map (·.2), readEnd? r = none := by
      intro r hr
      obtain ⟨⟨found, _⟩, hfound, hpair⟩ := map_eq_some_iff.1 hr
      cases hpair
      obtain ⟨v, hthis, hfound⟩ := bind_eq_some_iff.1 hfound
      have hthis' : "this." ++ v = "this" ++ '.' :: v := rfl
      have hv : target ++ u = "this" ++ '.' :: v := (literal?_eq_some.1 hthis).trans hthis'
      have hcut := cutFirst?_append (not_mem_of_isName hname (c := '.') (by decide))
        (action ++ '(' :: (args ++ ')' :: rest))
      rw [← hu, hv] at hcut
      obtain ⟨-, rfl⟩ := Prod.mk.inj (some.inj hcut)
      have hactionName : isName action = true := by
        have hall : ∀ a ∈ reads.map (·.1), isName a = true := by decide
        exact hall action haction
      have hsame : name? (action ++ '(' :: (args ++ ')' :: rest)) =
          some (action, '(' :: (args ++ ')' :: rest)) :=
        name?_eq_some_iff.2 ⟨rfl, hactionName, by rintro c ⟨⟩; decide⟩
      rw [hsame] at hfound
      obtain ⟨-, rfl⟩ := Prod.mk.inj (some.inj hfound)
      rfl
    have hsecond : (name? (target ++ u)).map (·.2) = some u := by rw [hread]; rfl
    have hnone : ∀ f : Text → Option (Read × Text), (∀ r, readEnd? r = none → f r = none) →
        (((literal? "this." (target ++ u)).bind name?).map (·.2)).toList.findSome? f = none := by
      intro f hf
      rw [findSome?_eq_none_iff]
      exact fun r hr => hf r (hfirst r (mem_toList.1 hr))
    rw [targetEnds, findSome?_append, findSome?_append, hsecond, hnone _ fun r hr => by rw [hr]; rfl]
    rw [none_or, toList_some, findSome?_cons, hend, consumed_append]
    rfl
  · have hfirst : ((literal? "this." ("this." ++ name ++ u)).bind name?).map (·.2) = some u := by
      rw [append_assoc, literal?_append, bind_some, hread]
      rfl
    rw [targetEnds, hfirst, toList_some, singleton_append, cons_append,
      findSome?_cons, hend, consumed_append]
    rfl

lemma isDotted_of_mem_target (hname : isName name = true)
    (htarget : target = name ∨ target = "this." ++ name) : ∀ c ∈ target, isDotted c = true := by
  have hword : ∀ c ∈ name, isDotted c = true := fun c hc => by
    rw [isDotted, isWord_of_mem_name hname c hc]
    rfl
  rcases htarget with rfl | rfl
  · exact hword
  · intro c hc
    have hthis : ∀ d ∈ ("this." : Text), isDotted d = true := all_eq_true.1 (by decide)
    exact (mem_append.1 hc).elim (hthis c) (hword c)

lemma accessorName?_field (hname : isName name = true)
    (htarget : target = name ∨ target = "this." ++ name) : accessorName? target = some name := by
  rcases htarget with rfl | rfl
  · have hthis : literal? "this." target = none := by
      refine eq_none_iff_forall_ne_some.2 fun r hr => ?_
      have hmem : '.' ∈ target := by
        rw [literal?_eq_some.1 hr]
        simp
      exact not_mem_of_isName hname (by decide) hmem
    rw [accessorName?, hthis, getD_none, if_pos hname]
  · rw [accessorName?, literal?_append, getD_some, if_pos hname]

lemma element?_field (hname : isName name = true)
    (htarget : target = name ∨ target = "this." ++ name) :
    element? ctx target = accessorCall? ctx name := by
  unfold element?
  dsimp only
  rw [trim_of_dotted (isDotted_of_mem_target hname htarget), accessorName?_field hname htarget]

lemma count_append_cons {d : Char} (hd : d ≠ c) (a b : Text) :
    (a ++ d :: b).count c = a.count c + b.count c := by
  rw [count_append, count_cons_of_ne hd]

/-- The counterpart of a read has two more of the letter than the read. -/
lemma count_read {element : Text} (htarget : target = name ∨ target = "this." ++ name)
    (haction : action ∈ reads.map (·.1)) (helement : accessorCall? ctx name = some element)
    (counterpart : Text) :
    (target ++ '.' :: (action ++ '(' :: (args ++ [')']))).count 'w' <
      ("await " ++ element ++ "." ++ counterpart ++ "(" ++ args ++ ")").count 'w' := by
  have hnone : ∀ a ∈ reads.map (·.1), a.count 'w' = 0 := by decide
  have htargetCount : target.count 'w' = name.count 'w' := by
    rcases htarget with rfl | rfl
    · rfl
    · rw [count_append]
      exact Nat.zero_add _
  rw [accessorCall?] at helement
  split_ifs at helement
  obtain ⟨self, -, rfl⟩ := map_eq_some_iff.1 helement
  have hread : (target ++ '.' :: (action ++ '(' :: (args ++ [')']))).count 'w' =
      name.count 'w' + args.count 'w' := by
    rw [count_append_cons (by decide), count_append_cons (by decide), htargetCount,
      hnone action haction]
    simp
  have hawait : ("await " : Text).count 'w' = 1 := by decide
  rw [hread]
  simp only [count_append]
  omega

/-- What the first exchange does at a place: it writes the read of something that is no element as
it is, and other reads with more of the letter. -/
lemma convertRead?_eq_some (hsearch : ∀ r, literalSearch? t = some r → readEnd? r = none)
    (h : convertRead? ctx before t = some (new, rest)) :
    ∃ name read, FieldRead name read ∧ t = read ++ rest ∧ (∀ c ∈ before, isDotted c = false) ∧
      ((accessorCall? ctx name = none ∧ new = read) ∨
        ((accessorCall? ctx name).isSome = true ∧ read.count 'w' < new.count 'w')) := by
  obtain ⟨⟨found, _⟩, hfound, hnew⟩ := map_eq_some_iff.1 h
  obtain ⟨hbefore, ht, haction, hflat, name, hname, htarget⟩ := read?_eq_some hsearch hfound
  refine ⟨name, _, ⟨found.target, found.action, found.arguments, rfl, htarget, hname, haction, hflat⟩,
    ?_, hbefore, ?_⟩
  · dsimp only at hnew
    split at hnew <;> (obtain ⟨-, rfl⟩ := Prod.mk.inj hnew; exact ht)
  · dsimp only at hnew
    rw [element?_field hname htarget] at hnew
    cases helement : accessorCall? ctx name with
    | none =>
      rw [helement] at hnew
      obtain ⟨rfl, rfl⟩ := Prod.mk.inj hnew
      refine .inl ⟨rfl, ?_⟩
      rw [ht, consumed_append]
    | some element =>
      rw [helement] at hnew
      obtain ⟨rfl, rfl⟩ := Prod.mk.inj hnew
      exact .inr ⟨rfl, count_read htarget haction helement _⟩

lemma convertRead?_append (hbefore : ∀ c ∈ before, isDotted c = false) (hread : FieldRead name read)
    (hknown : (accessorCall? ctx name).isSome = true) (rest : Text) :
    ∃ new, convertRead? ctx before (read ++ rest) = some (new, rest) ∧ read.count 'w' < new.count 'w' := by
  obtain ⟨target, action, args, rfl, htarget, hname, haction, hflat⟩ := hread
  obtain ⟨element, helement⟩ := isSome_iff_exists.1 hknown
  have hcut : target ++ '.' :: (action ++ '(' :: (args ++ [')'])) ++ rest =
      target ++ '.' :: (action ++ '(' :: (args ++ ')' :: rest)) := by simp
  refine ⟨_, ?_, count_read htarget haction helement ((Table.get? reads action).getD [])⟩
  rw [hcut, convertRead?, read?_append hbefore hname htarget haction hflat rest, map_some]
  dsimp only
  rw [element?_field hname htarget, helement]

lemma FieldRead.exists_run (h : FieldRead name read) :
    ∃ run args : Text, read = run ++ '(' :: (args ++ [')']) ∧ (∀ c ∈ run, isDotted c = true) ∧
      ∀ c ∈ args, isParenthesis c = false := by
  obtain ⟨target, action, args, rfl, htarget, hname, haction, hflat⟩ := h
  have hactions : ∀ a ∈ reads.map (·.1), a.all isDotted = true := by decide
  refine ⟨target ++ '.' :: action, args, by simp, fun c hc => ?_, hflat⟩
  simp only [mem_append, mem_cons] at hc
  rcases hc with hc | rfl | hc
  · exact isDotted_of_mem_target hname htarget c hc
  · decide
  · exact all_eq_true.1 (hactions action haction) c hc

lemma isParenthesis_of_isDotted (h : isDotted c = true) : isParenthesis c = false := by
  rw [Bool.eq_false_iff]
  intro hparenthesis
  simp only [isParenthesis, Bool.or_eq_true, beq_iff_eq] at hparenthesis
  rcases hparenthesis with rfl | rfl <;> exact absurd h (by decide)

/-- A read has one opening parenthesis, and the characters before it are those of names, so that no
other read starts inside of it. -/
lemma FieldRead.isolated {name' read' q rest' : Text} (h : FieldRead name read)
    (h' : FieldRead name' read') (heq : read ++ rest = q ++ (read' ++ rest')) (hq : q ≠ [])
    (hlength : q.length < read.length) (hlast : ∀ c ∈ q.getLast?, isDotted c = false) : False := by
  obtain ⟨run, args, rfl, hdotted, hflat⟩ := h.exists_run
  obtain ⟨run', args', rfl, hdotted', -⟩ := h'.exists_run
  obtain ⟨m, hm⟩ : q <+: run ++ '(' :: (args ++ [')']) :=
    prefix_of_prefix_length_le ⟨_, heq.symm⟩ (prefix_append _ _) (Nat.le_of_lt hlength)
  rw [← hm, append_assoc] at heq
  have hrest := append_cancel_left heq
  have hmne : m ≠ [] := by
    rintro rfl
    rw [append_nil] at hm
    rw [hm] at hlength
    exact Nat.lt_irrefl _ hlength
  -- The character before the other read is none of a name, so that read starts in the arguments.
  have hnot : ¬(q ⊆ run) := by
    intro hsubset
    have hmem := getLast_mem hq
    have hdot := hlast _ (getLast?_eq_some_getLast hq)
    rw [hdotted _ (hsubset hmem)] at hdot
    cases hdot
  obtain ⟨inner, rfl, hinner⟩ : ∃ inner, m = inner ++ [')'] ∧ inner ⊆ args := by
    rcases append_eq_append_iff.1 hm with ⟨r, hr, hm⟩ | ⟨r, hr, hm⟩
    · exact absurd (hr ▸ subset_append_left q r) hnot
    · cases r with
      | nil => exact absurd (by rw [hr, append_nil]; exact Subset.refl _) hnot
      | cons d r =>
        obtain ⟨-, hm⟩ := cons.inj hm
        rcases append_eq_append_iff.1 hm with ⟨x, hx, hm⟩ | ⟨x, hx, hm⟩
        · cases x with
          | nil => exact ⟨[], hm.symm, nil_subset _⟩
          | cons e x =>
            have hnil := (cons.inj hm).2
            exact absurd (append_eq_nil_iff.1 hnil.symm).2 hmne
        · exact ⟨x, hm, hx ▸ subset_append_right r x⟩
  have hflatInner : ∀ c ∈ inner, (!isParenthesis c) = true := fun c hc => by
    rw [hflat c (hinner hc)]
    rfl
  have hflatRun : ∀ c ∈ run', (!isParenthesis c) = true := fun c hc => by
    rw [isParenthesis_of_isDotted (hdotted' c hc)]
    rfl
  have hdrop := congrArg (List.dropWhile (!isParenthesis ·)) hrest
  rw [append_assoc, append_assoc, dropWhile_append_of_pos hflatInner,
    dropWhile_append_of_pos hflatRun] at hdrop
  cases (cons.inj hdrop).1

/-! ## The exchanges -/

section Passes

variable {ctx : Context} {t p old rest new : Text}

section

variable (hsearch : NoSearchRead t)
include hsearch

lemma found_read (h : Found (convertRead? ctx) none t p old rest new) :
    ∃ name, FieldRead name old ∧ (∀ c ∈ p.getLast?, isDotted c = false) ∧
      ((accessorCall? ctx name = none ∧ new = old) ∨
        ((accessorCall? ctx name).isSome = true ∧ old.count 'w' < new.count 'w')) := by
  have hsuffix : old ++ rest <:+ t := ⟨p, h.eq.symm⟩
  obtain ⟨name, read, hread, heq, hbefore, hnew⟩ :=
    convertRead?_eq_some (fun r => hsearch _ r hsuffix) h.read
  rw [or_none] at hbefore
  obtain rfl := append_cancel_right heq
  exact ⟨name, hread, hbefore, hnew⟩

lemma advances_convertRead? : Advances (convertRead? ctx) t := by
  intro before s new rest hs hread
  obtain ⟨name, read, ⟨target, action, args, rfl, -⟩, heq, -⟩ :=
    convertRead?_eq_some (fun r => hsearch s r hs) hread
  exact ⟨_, by simp, heq⟩

lemma exchangeAll_convertRead?_eq_self (h : ¬ReadSite ctx t) : exchangeAll (convertRead? ctx) t = t := by
  refine (exchanges_exchangeAll (advances_convertRead? hsearch)).eq_self ?_
  intro p old rest new hfound
  obtain ⟨name, hread, hbefore, ⟨-, hsame⟩ | ⟨hknown, -⟩⟩ := found_read hsearch hfound
  · exact hsame
  · exact absurd ⟨p, name, old, rest, hfound.eq, hbefore, hread, hknown⟩ h

lemma count_le_of_found_read (h : Found (convertRead? ctx) none t p old rest new) :
    old.count 'w' ≤ new.count 'w' := by
  obtain ⟨name, -, -, ⟨-, rfl⟩ | ⟨-, hlt⟩⟩ := found_read hsearch h
  · exact le_refl _
  · exact le_of_lt hlt

lemma count_lt_exchangeAll_convertRead? (h : ReadSite ctx t) :
    t.count 'w' < (exchangeAll (convertRead? ctx) t).count 'w' := by
  obtain ⟨before, name, read, after, ht, hbefore, hread, hknown⟩ := h
  obtain ⟨new, hnew, hlt⟩ := convertRead?_append hbefore hread hknown after
  have hne : read ≠ [] := by
    obtain ⟨target, action, args, rfl, -⟩ := hread
    simp
  have hfound : Found (convertRead? ctx) none t before read after new :=
    ⟨ht, hne, by rw [or_none]; exact hnew⟩
  refine (exchanges_exchangeAll (advances_convertRead? hsearch)).count_lt
    (fun _ _ _ _ => count_le_of_found_read hsearch) ?_ hfound hlt
  intro p old rest new q old' rest' new' hp hq hne hlength _
  obtain ⟨_, hold, -, -⟩ := found_read hsearch hp
  obtain ⟨_, hold', hlast, -⟩ := found_read hsearch hq
  have hwhole : p ++ (old ++ rest) = p ++ (q ++ (old' ++ rest')) := by
    rw [← hp.eq, hq.eq, append_assoc]
  refine absurd (hold.isolated hold' (append_cancel_left hwhole) hne hlength fun c hc => hlast c ?_) id
  rw [getLast?_append, mem_def.1 hc]
  rfl

end

lemma found_query (h : Found (fun _ => convertQuery? query counterpart) none t p old rest new) :
    new = counterpart ∧ ∃ start reference, (start = [] ∨ start = "this.".toList) ∧
      reference ∈ driverReferences ∧ old = start ++ (reference ++ query) := by
  obtain ⟨hnew, start, reference, hstart, hmem, heq⟩ := convertQuery?_eq_some h.read
  exact ⟨hnew, start, reference, hstart, hmem, append_cancel_right heq⟩

lemma advances_convertQuery? (query counterpart t : Text) :
    Advances (fun _ => convertQuery? query counterpart) t := by
  intro before s new rest _ hread
  obtain ⟨-, start, reference, -, hmem, heq⟩ := convertQuery?_eq_some hread
  refine ⟨_, ?_, heq⟩
  rw [driverReferences, mem_cons, mem_singleton] at hmem
  rcases hmem with rfl | rfl <;> simp

lemma exchangeAll_convertQuery?_eq_self (counterpart : Text) (h : ¬QuerySite query t) :
    exchangeAll (fun _ => convertQuery? query counterpart) t = t := by
  refine (exchanges_exchangeAll (advances_convertQuery? query counterpart t)).eq_self ?_
  intro p old rest new hfound
  obtain ⟨-, start, reference, -, hmem, rfl⟩ := found_query hfound
  exact absurd ⟨reference, hmem, p ++ start, rest, by rw [hfound.eq]; simp⟩ h

/-- The characters of a query but not of its references are those of its name. -/
lemma count_of_found_query (hc : c = 'w' ∨ c = '=')
    (h : Found (fun _ => convertQuery? query counterpart) none t p old rest new) :
    old.count c = query.count c := by
  obtain ⟨-, start, reference, hstart, hmem, rfl⟩ := found_query h
  have hnone : ∀ reference ∈ driverReferences, reference.count c = 0 := by
    rcases hc with rfl | rfl <;> decide
  have hthis : start.count c = 0 := by
    rcases hstart with rfl | rfl
    · rfl
    · rcases hc with rfl | rfl <;> decide
  rw [count_append, count_append, hthis, hnone reference hmem, Nat.zero_add, Nat.zero_add]

lemma count_le_exchangeAll_convertQuery? (hc : c = 'w' ∨ c = '=') (hquery : query.count c = 0)
    (counterpart t : Text) :
    t.count c ≤ (exchangeAll (fun _ => convertQuery? query counterpart) t).count c := by
  refine (exchanges_exchangeAll (advances_convertQuery? query counterpart t)).count_le ?_
  intro p old rest new hfound
  rw [count_of_found_query hc hfound, hquery]
  exact Nat.zero_le _

lemma count_lt_exchangeAll_convertQuery? (hquery : query.count 'w' = 0)
    (hcounterpart : 0 < counterpart.count 'w') (h : QuerySite query t) :
    t.count 'w' < (exchangeAll (fun _ => convertQuery? query counterpart) t).count 'w' := by
  have hgain : ∀ p old rest new,
      Found (fun _ => convertQuery? query counterpart) none t p old rest new →
        old.count 'w' < new.count 'w' := by
    intro p old rest new hfound
    obtain ⟨rfl, -⟩ := found_query hfound
    rwa [count_of_found_query (.inl rfl) hfound, hquery]
  obtain ⟨p, old, rest, hfound⟩ := h.exists_found counterpart
  exact (exchanges_exchangeAll (advances_convertQuery? query counterpart t)).count_lt
    (fun p old rest new hfound => le_of_lt (hgain p old rest new hfound))
    (fun p old rest new _ _ _ _ hfound _ _ _ _ => hgain p old rest new hfound) hfound
    (hgain p old rest counterpart hfound)

lemma exchangeAll_convertQuery?_ne_self (h : QuerySite query t)
    (hends : ∀ a b : Text, a ++ query ≠ b ++ counterpart) :
    exchangeAll (fun _ => convertQuery? query counterpart) t ≠ t := by
  intro hsame
  obtain ⟨p, old, rest, hfound⟩ := h.exists_found counterpart
  obtain ⟨a, b, _, old', new', tail, ht, hout, hread⟩ :=
    (exchanges_exchangeAll (advances_convertQuery? query counterpart t)).exists_last hfound
  obtain ⟨rfl, start, reference, -, -, heq⟩ := convertQuery?_eq_some hread
  obtain rfl := append_cancel_right heq
  rw [hsame, ht] at hout
  have hwhole : a ++ start ++ reference ++ query ++ tail = b ++ new' ++ tail := by simpa using hout
  exact hends _ b (append_cancel_right hwhole)

lemma found_equals (h : Found (fun _ => convertEquals?) none t p old rest new) :
    ∃ start receiver argument, IsReceiver receiver ∧ (∀ c ∈ argument, isParenthesis c = false) ∧
      old = start ++ equalsCall receiver argument ∧ new = start ++ receiver ++ " === " ++ argument := by
  obtain ⟨start, receiver, argument, hreceiver, hargument, heq, hnew⟩ := convertEquals?_eq_some h.read
  exact ⟨start, receiver, argument, hreceiver, hargument, append_cancel_right heq, hnew⟩

lemma advances_convertEquals? (t : Text) : Advances (fun _ => convertEquals?) t := by
  intro before s new rest _ hread
  obtain ⟨start, receiver, argument, -, -, heq, -⟩ := convertEquals?_eq_some hread
  exact ⟨_, by simp [equalsCall], heq⟩

lemma exchangeAll_convertEquals?_eq_self (h : ¬EqualsSite t) :
    exchangeAll (fun _ => convertEquals?) t = t := by
  refine (exchanges_exchangeAll (advances_convertEquals? t)).eq_self ?_
  intro p old rest new hfound
  obtain ⟨start, receiver, argument, hreceiver, hargument, rfl, -⟩ := found_equals hfound
  exact absurd ⟨receiver, argument, hreceiver, hargument, p ++ start, rest, by rw [hfound.eq]; simp⟩ h

/-- A comparison has three more equals signs than the call, and as much of every letter but those of
the method. -/
lemma count_of_found_equals (h : Found (fun _ => convertEquals?) none t p old rest new)
    (hcall : (".equals()" : Text).count c = 0) : new.count c = old.count c + (" === " : Text).count c := by
  obtain ⟨start, receiver, argument, -, -, rfl, rfl⟩ := found_equals h
  have hmethod : (".equals(" : Text).count c = 0 ∧ (")" : Text).count c = 0 := by
    have hsplit : (".equals()" : Text) = (".equals(" : Text) ++ (")" : Text) := rfl
    rw [hsplit, count_append] at hcall
    omega
  simp only [equalsCall, count_append]
  omega

lemma count_le_exchangeAll_convertEquals? (t : Text) :
    t.count 'w' ≤ (exchangeAll (fun _ => convertEquals?) t).count 'w' := by
  refine (exchanges_exchangeAll (advances_convertEquals? t)).count_le ?_
  intro p old rest new hfound
  rw [count_of_found_equals hfound (by decide)]
  exact Nat.le_add_right _ _

lemma count_lt_exchangeAll_convertEquals? (h : EqualsSite t) :
    t.count '=' < (exchangeAll (fun _ => convertEquals?) t).count '=' := by
  have hgain : ∀ p old rest new, Found (fun _ => convertEquals?) none t p old rest new →
      old.count '=' < new.count '=' := by
    intro p old rest new hfound
    rw [count_of_found_equals hfound (by decide)]
    exact Nat.lt_add_of_pos_right (by decide)
  obtain ⟨receiver, argument, hreceiver, hargument, p, rest, rfl⟩ := h
  have hfound : Found (fun _ => convertEquals?) none (p ++ equalsCall receiver argument ++ rest) p
      (equalsCall receiver argument) rest (receiver ++ " === " ++ argument) :=
    ⟨by simp, by simp [equalsCall], convertEquals?_append hreceiver hargument rest⟩
  exact (exchanges_exchangeAll (advances_convertEquals? _)).count_lt
    (fun p old rest new hfound => Nat.le_of_lt (hgain p old rest new hfound))
    (fun p old rest new _ _ _ _ hfound _ _ _ _ => hgain p old rest new hfound) hfound
    (hgain _ _ _ _ hfound)

end Passes

/-! ## Texts that stay as they are -/

/-- **An expression changes a text exactly at its sites.** -/
lemma expression_eq_self_iff (ctx : Context) (hsearch : NoSearchRead t) :
    expression ctx t = t ↔ ¬Site ctx t := by
  obtain ⟨title, htitle⟩ : ∃ title, title = "await " ++ ctx.pageRef ++ ".title()" := ⟨_, rfl⟩
  obtain ⟨address, haddress⟩ : ∃ address, address = ctx.pageRef ++ ".url()" := ⟨_, rfl⟩
  have hexpression : expression ctx t = exchangeAll (fun _ => convertEquals?)
      (exchangeAll (fun _ => convertQuery? ".getCurrentUrl()" address)
        (exchangeAll (fun _ => convertQuery? ".getTitle()" title) (exchangeAll (convertRead? ctx) t))) := by
    rw [htitle, haddress]
    rfl
  rw [hexpression]
  constructor
  · intro h
    obtain ⟨t₁, h₁⟩ : ∃ u, exchangeAll (convertRead? ctx) t = u := ⟨_, rfl⟩
    obtain ⟨t₂, h₂⟩ : ∃ u, exchangeAll (fun _ => convertQuery? ".getTitle()" title) t₁ = u := ⟨_, rfl⟩
    obtain ⟨t₃, h₃⟩ : ∃ u, exchangeAll (fun _ => convertQuery? ".getCurrentUrl()" address) t₂ = u :=
      ⟨_, rfl⟩
    rw [h₁, h₂, h₃] at h
    have hw₂ : t₁.count 'w' ≤ t₂.count 'w' :=
      h₂ ▸ count_le_exchangeAll_convertQuery? (.inl rfl) (by decide) title t₁
    have hw₃ : t₂.count 'w' ≤ t₃.count 'w' :=
      h₃ ▸ count_le_exchangeAll_convertQuery? (.inl rfl) (by decide) address t₂
    have hw₄ := count_le_exchangeAll_convertEquals? t₃
    rw [h] at hw₄
    -- No `w` is gained in all, so the first two exchanges have found nothing to change.
    have hnoRead : ¬ReadSite ctx t := by
      intro hsite
      have hlt := count_lt_exchangeAll_convertRead? hsearch hsite
      rw [h₁] at hlt
      omega
    have ht₁ : t₁ = t := h₁.symm.trans (exchangeAll_convertRead?_eq_self hsearch hnoRead)
    rw [ht₁] at h₂ hw₂
    have hawait : 0 < title.count 'w' := by
      rw [htitle, append_assoc, count_append]
      exact Nat.add_pos_left (by decide) _
    have hnoTitle : ¬QuerySite ".getTitle()" t := by
      intro hsite
      have hlt := count_lt_exchangeAll_convertQuery? (by decide) hawait hsite
      rw [h₂] at hlt
      omega
    have ht₂ : t₂ = t := h₂.symm.trans (exchangeAll_convertQuery?_eq_self title hnoTitle)
    rw [ht₂] at h₃
    -- Nor is an equals sign, so the last one has not either.
    have hequals : t.count '=' ≤ t₃.count '=' :=
      h₃ ▸ count_le_exchangeAll_convertQuery? (.inr rfl) (by decide) address t
    have hnoEquals : ¬EqualsSite t₃ := by
      intro hsite
      have hlt := count_lt_exchangeAll_convertEquals? hsite
      rw [h] at hlt
      omega
    have ht₃ : t₃ = t := (exchangeAll_convertEquals?_eq_self hnoEquals).symm.trans h
    rw [ht₃] at h₃ hnoEquals
    have hends : ∀ a b : Text, a ++ ".getCurrentUrl()" ≠ b ++ address := by
      intro a b heq
      rw [haddress, ← append_assoc] at heq
      have hfifth := congrArg (fun s => s.reverse[4]?) heq
      rw [reverse_append, reverse_append] at hfifth
      exact absurd (some.inj hfifth) (by decide)
    have hnoUrl : ¬QuerySite ".getCurrentUrl()" t := fun hsite =>
      exchangeAll_convertQuery?_ne_self hsite hends h₃
    rintro (hsite | ⟨query, hmem, hsite⟩ | hsite)
    · exact hnoRead hsite
    · rw [driverQueries, mem_cons, mem_singleton] at hmem
      rcases hmem with rfl | rfl
      · exact hnoTitle hsite
      · exact hnoUrl hsite
    · exact hnoEquals hsite
  · intro h
    rw [exchangeAll_convertRead?_eq_self hsearch fun hsite => h (.inl hsite),
      exchangeAll_convertQuery?_eq_self title fun hsite => h (.inr (.inl ⟨_, by decide, hsite⟩)),
      exchangeAll_convertQuery?_eq_self address fun hsite => h (.inr (.inl ⟨_, by decide, hsite⟩)),
      exchangeAll_convertEquals?_eq_self fun hsite => h (.inr (.inr hsite))]

end Restage.Conversion
