import Restage.Proofs.Pattern.CacheRuns

/-!
# Replies of the pattern service

A reply is any text.  It is valid for a list of patterns if it is a JSON document that lists values,
and these describe the patterns one by one (`ValidFor`).  Every other reply is absorbed: the visit
gives no pattern and stores nothing.  The one exception is a whole number with too many digits,
which the reader of JSON refuses with an error of its own and which no caller absorbs
(`visit_absorbs_reply`).
-/

namespace Restage

open List Option

/-! ## Numbers with too many digits -/

namespace Json

open Text

lemma constant?_of_isDigit {c : Char} (h : c.isDigit = true) (r : Text) : constant? (c :: r) = none := by
  refine findSome?_eq_none_iff.2 fun word hword => ?_
  refine map_eq_none_iff.2 (eq_none_iff_forall_ne_some.2 fun rest hrest => ?_)
  have hstart := literal?_eq_some.1 hrest
  simp only [constants, mem_cons, not_mem_nil, or_false] at hword
  rcases hword with rfl | rfl | rfl | rfl | rfl | rfl <;>
  · obtain ⟨rfl, -⟩ := cons.inj hstart
    exact absurd h (by decide)

/-- **A text of digits** that does not start with zero is a whole number, and refused if it is too
long. -/
lemma read_of_digits {c : Char} {r : Text} (hzero : c ≠ '0') (hdigits : ∀ d ∈ c :: r, d.isDigit = true)
    (hlong : maxDigits < (c :: r).length) : read (c :: r) = .error (.tooManyDigits (c :: r).length) := by
  obtain ⟨hc, hr⟩ := forall_mem_cons.1 hdigits
  have hne : ∀ {d : Char}, d.isDigit = false → c ≠ d := by
    rintro d hd rfl
    rw [hc] at hd
    cases hd
  have hgap : gap (c :: r) = c :: r := by
    refine dropWhile_cons_of_neg fun hblank => ?_
    simp only [Bool.or_eq_true, beq_iff_eq] at hblank
    rcases hblank with ((h | h) | h) | h <;> exact hne (by decide) h
  have hwhole : wholePart? (c :: r) = some (c :: r, []) := by
    rw [wholePart?.eq_2 _ (by simpa using hzero), run?, if_pos hc, takeWhile_eq_self_iff.2 hr,
      dropWhile_eq_nil_iff.2 hr]
  have hnumber : number? (c :: r) = .error (.tooManyDigits (c :: r).length) := by
    rw [number?.eq_2 _ (by simpa using hne (by decide)), unsigned?, hwhole]
    exact if_pos hlong
  have hvalue : ∀ n, value? (n + 1) (c :: r) = .error (.tooManyDigits (c :: r).length) := by
    intro n
    rw [value?.eq_5, constant?_of_isDigit hc, hnumber]
    all_goals simpa using hne (by decide)
  rw [read, hgap, hvalue]
  rfl

end Json

variable {v : Value} {items : List Value} {content : Text}

namespace Service

open Json (Value)

/-! ## Valid replies -/

/-- A value describes a pattern: an object with a text as its name and, unless they are missing, a
text as its description and a number between zero and one as its confidence. -/
@[mk_iff] structure Describes (v : Value) (p : Pattern) : Prop where
  name : v.member? "name" = some (.string p.name)
  description : v.member? "description" = some (.string p.description) ∨
    v.member? "description" = none ∧ p.description = []
  confidence : (∃ c, v.member? "confidence" = some c ∧ c.asReal? = some p.confidence.value) ∨
    v.member? "confidence" = none ∧ p.confidence = .zero

/-- A reply that lists descriptions of these patterns, in this order, and nothing else. -/
def ValidFor (content : Text) (patterns : List Pattern) : Prop :=
  ∃ v items, Json.read content = .ok v ∧ listed? (listing v) = some items ∧ List.Forall₂ Describes items patterns

lemma ofNumber?_eq_some {x : Binary64} {c : Confidence} :
    Confidence.ofNumber? x = some c ↔ x = c.value := by
  unfold Confidence.ofNumber?
  constructor
  · intro h
    split_ifs at h
    exact congrArg Confidence.value (some.inj h)
  · rintro rfl
    rw [dif_pos c.isFraction]

/-- **Patterns are read by their description.** -/
lemma ofJson?_eq_some_iff {p : Pattern} : Pattern.ofJson? v = some p ↔ Describes v p := by
  obtain ⟨name, description, confidence⟩ := p
  rw [describes_iff, Pattern.ofJson?]
  generalize v.member? "name" = named, v.member? "description" = described, v.member? "confidence" = rated
  rcases named with _ | named
  · simp
  rcases described with _ | described <;> rcases rated with _ | rated <;>
  simp [bind_eq_some_iff, Value.text?_eq_some_iff, ofNumber?_eq_some, and_comm, @eq_comm _ _ confidence]

lemma mapM_eq_some_iff {α β : Type} {f : α → Option β} {as : List α} {bs : List β} :
    as.mapM f = some bs ↔ Forall₂ (f · = some ·) as bs := by
  induction as generalizing bs with
  | nil => cases bs <;> simp
  | cons a as ih =>
    cases bs with
    | nil => simp [bind_eq_some_iff]
    | cons b bs => simp [bind_eq_some_iff, ih]

lemma patterns?_eq_some_iff {patterns : List Pattern} :
    patterns? v = some patterns ↔ ∃ items, listed? (listing v) = some items ∧ Forall₂ Describes items patterns := by
  simp only [patterns?, bind_eq_some_iff, mapM_eq_some_iff, ofJson?_eq_some_iff]

/-- **A reply** is valid, it is malformed, or it has a number with too many digits. -/
lemma readAnswer_cases (content : Text) :
    (∃ patterns, ValidFor content patterns ∧ readAnswer content = .ok (some patterns)) ∨
    (∀ patterns, ¬ValidFor content patterns) ∧
      ((readAnswer content = .ok none ∧ ∀ count, Json.read content ≠ .error (.tooManyDigits count)) ∨
        ∃ count, Json.read content = .error (.tooManyDigits count) ∧
          readAnswer content = .error (.tooManyDigits count)) := by
  rw [readAnswer]
  cases hread : Json.read content with
  | ok v =>
    cases hpatterns : patterns? v with
    | some patterns =>
      obtain ⟨items, hlists, hitems⟩ := patterns?_eq_some_iff.1 hpatterns
      exact .inl ⟨patterns, ⟨v, items, hread, hlists, hitems⟩, congrArg Except.ok hpatterns⟩
    | none =>
      refine .inr ⟨?_, .inl ⟨congrArg Except.ok hpatterns, by simp⟩⟩
      rintro patterns ⟨v', items, hread', hlists, hitems⟩
      cases hread.symm.trans hread'
      cases hpatterns.symm.trans (patterns?_eq_some_iff.2 ⟨items, hlists, hitems⟩)
  | error e =>
    refine .inr ⟨?_, ?_⟩
    · rintro patterns ⟨v, items, hread', -⟩
      cases hread.symm.trans hread'
    · cases e with
      | malformed => exact .inl ⟨rfl, by simp⟩
      | tooManyDigits count => exact .inr ⟨count, rfl, rfl⟩

/-! ## Visits -/

/-- One of the calls is answered with this content, which may be missing, and those before it
fail. -/
def Visit.Answered (v : Visit) (content : Text) : Prop :=
  ∃ n reply, n < 3 ∧ (∀ m < n, ∃ message, v.call m = .failed message) ∧ v.call n = .answered reply ∧
    content = reply.getD []

/-- What a visit does with a reply: it stores and gives the patterns that the reply is valid for, it
absorbs a reply that is valid for none, or it fails at a number with too many digits. -/
inductive Takes (content : Text) (v : Visit) (o : Outcome) : Prop
  | stores (patterns : List Pattern) : ValidFor content patterns → o.result = .ok patterns →
      o.cache.get? v.payload = some ⟨patterns, v.answered⟩ → Takes content v o
  | absorbs : (∀ patterns, ¬ValidFor content patterns) →
      (∀ count, Json.read content ≠ .error (.tooManyDigits count)) → o.result = .ok [] →
      o.cache.get? v.payload = none → Takes content v o
  | fails (count : Nat) : Json.read content = .error (.tooManyDigits count) →
      o.result = .error (.tooManyDigits count) → o.cache.get? v.payload = none → Takes content v o

section Visits

variable {s : Service} {cache : Cache} {v : Visit}

lemma Visit.Answered.request_eq (h : v.Answered content) :
    ∃ calls, request v.call = (.ok content, calls) := by
  obtain ⟨n, reply, hn, hfailed, hanswered, rfl⟩ := h
  refine ⟨0 + n + 1, tryFrom_of_answered hn (fun m hm => ?_) ?_⟩
  · rw [Nat.zero_add]
    exact hfailed m hm
  · rw [Nat.zero_add, hanswered]

lemma request_of_failed {call : Nat → Call} (h : ∀ m < 3, ∃ message, call m = .failed message) :
    ∃ message, call 2 = .failed message ∧ request call = (.error message, 3) := by
  obtain ⟨first, hfirst⟩ := h 0 (by decide)
  obtain ⟨second, hsecond⟩ := h 1 (by decide)
  obtain ⟨third, hthird⟩ := h 2 (by decide)
  exact ⟨third, hthird, by simp [request, maxTries, tryFrom, hfirst, hsecond, hthird]⟩

lemma visit_takes (hasks : s.AsksService cache v) (h : v.Answered content) :
    Takes content v (s.visit cache v) := by
  obtain ⟨calls, hrequest⟩ := h.request_eq
  have hnone : Table.get? (cache.filter (·.1 ≠ v.payload)) v.payload = none := by
    rw [get?_filter, if_pos rfl]
  rw [visit_of_expired hasks.expired, hrequest, outcomeOf]
  rcases readAnswer_cases content with ⟨patterns, hvalid, hread⟩ | ⟨hinvalid, ⟨hread, hdigits⟩ | ⟨n, hdigits, hread⟩⟩
  · rw [hread]
    exact .stores patterns hvalid rfl (by rw [Table.get?_put, if_pos rfl])
  · rw [hread]
    exact .absorbs hinvalid hdigits rfl hnone
  · rw [hread]
    exact .fails n hdigits rfl hnone

lemma visit_of_failed (hasks : s.AsksService cache v) (h : ∀ m < 3, ∃ message, v.call m = .failed message) :
    (s.visit cache v).cache.get? v.payload = none ∧
      ∃ message, v.call 2 = .failed message ∧ (s.visit cache v).result = .error (.failed message) := by
  obtain ⟨message, hlast, hrequest⟩ := request_of_failed h
  rw [visit_of_expired hasks.expired, hrequest]
  exact ⟨by rw [outcomeOf, get?_filter, if_pos rfl], message, hlast, rfl⟩

end Visits

/-- **Every reply is absorbed but one kind.**  A visit that calls the service and gets a reply,
whatever it is, stores and gives the patterns that the reply is valid for; if there are none it
gives no patterns and stores nothing, unless the reply has a whole number with too many digits.  The
visit fails exactly for such a number and if all three calls fail.  Then there is no entry for the
question. -/
theorem visit_absorbs_reply (s : Service) (cache : Cache) (v : Visit) (hcalls : (s.visit cache v).calls ≠ 0) :
    (∀ content, v.Answered content → Takes content v (s.visit cache v)) ∧
    ((∀ m < 3, ∃ message, v.call m = .failed message) →
      (s.visit cache v).cache.get? v.payload = none ∧
        ∃ message, v.call 2 = .failed message ∧ (s.visit cache v).result = .error (.failed message)) ∧
    ((∃ e, (s.visit cache v).result = .error e) ↔ (∀ m < 3, ∃ message, v.call m = .failed message) ∨
      ∃ content count, v.Answered content ∧ Json.read content = .error (.tooManyDigits count)) := by
  have hasks : s.AsksService cache v := by
    rcases visit_cases s cache v with ⟨_, -, -, hvisit⟩ | hasks
    · rw [hvisit] at hcalls
      exact absurd rfl hcalls
    · exact hasks
  refine ⟨fun content h => visit_takes hasks h, visit_of_failed hasks, ?_⟩
  constructor
  · rintro ⟨e, he⟩
    rcases request_cases v.call with ⟨n, reply, hn, hfailed, hanswered, -⟩ | ⟨hfailed, -⟩
    · have hreply : v.Answered (reply.getD []) := ⟨n, reply, hn, hfailed, hanswered, rfl⟩
      cases visit_takes hasks hreply with
      | stores _ _ hresult => cases hresult.symm.trans he
      | absorbs _ _ hresult => cases hresult.symm.trans he
      | fails count hread => exact .inr ⟨_, count, hreply, hread⟩
    · exact .inl hfailed
  · rintro (hfailed | ⟨content, count, hreply, hread⟩)
    · obtain ⟨-, message, -, hresult⟩ := visit_of_failed hasks hfailed
      exact ⟨_, hresult⟩
    · cases visit_takes hasks hreply with
      | stores _ hvalid =>
        obtain ⟨_, _, hvalue, -⟩ := hvalid
        cases hread.symm.trans hvalue
      | absorbs _ hdigits => exact absurd hread (hdigits count)
      | fails _ _ hresult => exact ⟨_, hresult⟩

/-- A reply with a number in place of a pattern: nothing is given, and the entry that has expired is
gone. -/
theorem number_for_pattern_absorbed :
    let s : Service := ⟨"m", 500, 300⟩
    let cache : Cache := [((clickVisit 0 0 []).payload, ⟨[], 0⟩)]
    let v := clickVisit 300000000 300000001 "[1]"
    (s.visit cache v).calls = 1 ∧ v.Answered "[1]" ∧ (s.visit cache v).result = .ok [] ∧
      (s.visit cache v).cache.get? v.payload = none := by
  intro s cache v
  have hcalls : (s.visit cache v).calls = 1 := by decide +kernel
  have hanswered : v.Answered "[1]" := ⟨0, some "[1]", by decide, by simp, rfl, rfl⟩
  have hread : Json.read "[1]" = .ok (.array [.int 1]) := rfl
  refine ⟨hcalls, hanswered, ?_⟩
  cases (visit_absorbs_reply s cache v (by rw [hcalls]; decide)).1 _ hanswered with
  | stores patterns hvalid =>
    obtain ⟨w, items, hw, hlists, hitems⟩ := hvalid
    cases hread.symm.trans hw
    cases hlists
    cases hitems with
    | cons hdescribes => cases hdescribes.name
  | absorbs _ _ hresult hentry => exact ⟨hresult, hentry⟩
  | fails count hcount => cases hread.symm.trans hcount

/-- A reply that is one whole number with 4301 digits: the call is answered, and the visit fails. -/
theorem long_number_not_absorbed :
    let v := clickVisit 0 0 (List.replicate 4301 '1')
    v.Answered (List.replicate 4301 '1') ∧
      (visit ⟨"gpt-4o-mini", 1024, 300⟩ [] v).result = .error (.tooManyDigits 4301) := by
  intro v
  refine ⟨⟨0, some (List.replicate 4301 '1'), by decide, by simp, rfl, rfl⟩, ?_⟩
  have hread : Json.read (List.replicate 4301 '1') = .error (.tooManyDigits 4301) := by
    have hdigits : ∀ d ∈ '1' :: List.replicate 4300 '1', d.isDigit = true := by
      rw [← List.replicate_succ]
      intro d hd
      rw [List.eq_of_mem_replicate hd]
      decide
    have hdigits := Json.read_of_digits (by decide) hdigits (by rw [← List.replicate_succ, List.length_replicate]; decide)
    rwa [← List.replicate_succ, List.length_replicate] at hdigits
  have hrequest : request v.call = (.ok (List.replicate 4301 '1'), 1) := rfl
  rw [visit_of_expired (by simp [Table.get?]), hrequest, outcomeOf, readAnswer, hread]

end Service

end Restage
