import Restage.Pattern.Service
import Restage.Proofs.Project.Regular

/-!
# The cache of the pattern service over whole runs

The service is asked again and again, and each answer may be kept.  A run is a list of visits, each
with the time at which it looks at the cache, the time at which its answer has come and the outcomes
of the calls that it would make.  `cacheAfter` is the cache that a run leaves behind when it starts
with an empty one.

What one visit does is said once, in `visit_cases`: it is served from the cache, or it calls the
service.  From this `records` derives, for a whole run, that every entry was stored by some visit,
and that what a visit has stored stays until another visit finds it expired.  `visit_after_run` puts
both together for a clock that never goes back: a visit is served exactly by the visit that stored
an answer for the same question a short enough time ago, and it gets what that visit got.
-/

namespace Restage.Service

open List

variable {v u : Visit} {patterns : List Pattern} {made left : Nat}

/-! ## Runs -/

/-- One question to the service. -/
structure Visit where
  actions : List Action
  /-- When the cache is looked at. -/
  asked : Int
  /-- When the answer of the service has come, if it is called. -/
  answered : Int
  /-- How each call would end. -/
  call : Nat → Call

/-- What is asked. -/
def Visit.payload (v : Visit) : Text := Action.payload v.actions

/-- One of the calls is answered, those before it fail, and the answer lists these patterns. -/
def Visit.Gives (v : Visit) (patterns : List Pattern) : Prop :=
  ∃ n content, n < 3 ∧ (∀ m < n, ∃ message, v.call m = .failed message) ∧
    v.call n = .answered content ∧ readAnswer (content.getD []) = .ok (some patterns)

def visit (s : Service) (cache : Cache) (v : Visit) : Outcome :=
  s.recognize cache v.asked v.call v.actions v.answered

/-- The cache after a run that started with an empty one. -/
def cacheAfter (s : Service) (past : List Visit) : Cache :=
  past.foldl (fun cache v => (s.visit cache v).cache) []

def outcomeAfter (s : Service) (past : List Visit) (v : Visit) : Outcome := s.visit (s.cacheAfter past) v

/-- The clock of a run never goes back. -/
def Forward (run : List Visit) : Prop :=
  (∀ v ∈ run, v.asked ≤ v.answered) ∧ run.Pairwise fun u v => u.answered ≤ v.asked

/-- After a run, a visit calls the service and gets patterns. -/
def Stores (s : Service) (before : List Visit) (u : Visit) (patterns : List Pattern) : Prop :=
  (s.outcomeAfter before u).calls ≠ 0 ∧ u.Gives patterns

/-- In a run, a visit has stored patterns for the question of another one, less than the time that
answers are kept ago. -/
structure Serves (s : Service) (past : List Visit) (v : Visit) (before : List Visit) (u : Visit)
    (patterns : List Pattern) : Prop where
  earlier : ∃ later, past = before ++ u :: later
  payload_eq : u.payload = v.payload
  stores : s.Stores before u patterns
  recent : v.asked - u.answered < s.ttl * 1000000

/-! ## Tries -/

section Tries

variable {call : Nat → Call}

lemma tryFrom_of_answered {k : Nat} {content : Option Text} (hk : k < left)
    (hfailed : ∀ m < k, ∃ message, call (made + m) = .failed message)
    (hanswered : call (made + k) = .answered content) :
    tryFrom call made left = (.ok (content.getD []), made + k + 1) := by
  induction left generalizing made k with
  | zero => omega
  | succ left ih =>
    rw [tryFrom]
    cases k with
    | zero =>
      rw [Nat.add_zero] at hanswered
      rw [hanswered]
    | succ k =>
      obtain ⟨message, hfirst⟩ := hfailed 0 k.succ_pos
      rw [Nat.add_zero] at hfirst
      rw [hfirst]
      dsimp only
      rw [← Nat.add_assoc, Nat.add_right_comm] at hanswered
      rw [if_neg (by omega), ih (k := k) (by omega) (fun m hm => ?_) hanswered]
      · rw [← Nat.add_assoc, Nat.add_right_comm made 1 k]
      · rw [Nat.add_right_comm]
        exact hfailed (m + 1) (Nat.succ_lt_succ hm)

lemma tryFrom_of_failed (hleft : 0 < left)
    (hfailed : ∀ m < left, ∃ message, call (made + m) = .failed message) :
    ∃ message, tryFrom call made left = (.error message, made + left) := by
  induction left generalizing made with
  | zero => omega
  | succ left ih =>
    obtain ⟨message, hfirst⟩ := hfailed 0 hleft
    rw [Nat.add_zero] at hfirst
    rw [tryFrom, hfirst]
    split_ifs with hlast
    · exact ⟨message, by rw [hlast]⟩
    · have hrest : ∀ m < left, ∃ message, call (made + 1 + m) = .failed message := by
        intro m hm
        rw [Nat.add_right_comm]
        exact hfailed (m + 1) (Nat.succ_lt_succ hm)
      obtain ⟨last, htail⟩ := ih (Nat.pos_of_ne_zero hlast) hrest
      exact ⟨last, by rw [htail, Nat.add_assoc, Nat.add_comm 1]⟩

lemma exists_answered_or_forall_failed (call : Nat → Call) (n : Nat) :
    (∃ k content, k < n ∧ (∀ m < k, ∃ message, call m = .failed message) ∧ call k = .answered content) ∨
      ∀ m < n, ∃ message, call m = .failed message := by
  induction n with
  | zero => exact .inr fun m hm => absurd hm m.not_lt_zero
  | succ n ih =>
    rcases ih with ⟨k, content, hk, hfailed, hanswered⟩ | hfailed
    · exact .inl ⟨k, content, by omega, hfailed, hanswered⟩
    · cases hcall : call n with
      | answered content => exact .inl ⟨n, content, n.lt_succ_self, hfailed, hcall⟩
      | failed message =>
        refine .inr fun m hm => ?_
        rcases Nat.lt_succ_iff_lt_or_eq.1 hm with hlt | rfl
        · exact hfailed m hlt
        · exact ⟨message, hcall⟩

lemma request_cases (call : Nat → Call) :
    (∃ n content, n < 3 ∧ (∀ m < n, ∃ message, call m = .failed message) ∧
        call n = .answered content ∧ request call = (.ok (content.getD []), n + 1)) ∨
      ((∀ m < 3, ∃ message, call m = .failed message) ∧ ∃ message, request call = (.error message, 3)) := by
  rcases exists_answered_or_forall_failed call 3 with ⟨n, content, hn, hfailed, hanswered⟩ | hfailed
  · have hrequest : request call = (.ok (content.getD []), 0 + n + 1) :=
      tryFrom_of_answered hn (fun m hm => by rw [Nat.zero_add]; exact hfailed m hm)
        (by rw [Nat.zero_add]; exact hanswered)
    rw [Nat.zero_add] at hrequest
    exact .inl ⟨n, content, hn, hfailed, hanswered, hrequest⟩
  · refine .inr ⟨hfailed, tryFrom_of_failed (by decide) fun m hm => ?_⟩
    rw [Nat.zero_add]
    exact hfailed m hm

end Tries

/-! ## One visit -/

/-- A visit finds no fresh entry for its question and calls the service.  Other entries stay, and
the entry for the question is afterwards the one that the visit has stored, if it has got
patterns. -/
structure AsksService (s : Service) (cache : Cache) (v : Visit) : Prop where
  expired : ∀ e, cache.get? v.payload = some e → s.ttl * 1000000 ≤ v.asked - e.storedAt
  calls_pos : 1 ≤ (s.visit cache v).calls
  calls_le : (s.visit cache v).calls ≤ 3
  result_eq : ∀ patterns, v.Gives patterns → (s.visit cache v).result = .ok patterns
  get?_payload : ∀ e, (s.visit cache v).cache.get? v.payload = some e ↔
    v.Gives e.patterns ∧ e.storedAt = v.answered
  get?_other : ∀ other ≠ v.payload, (s.visit cache v).cache.get? other = cache.get? other

variable {e : Entry} {past before : List Visit}

section Visits

variable {s : Service} {cache : Cache} {v : Visit}

lemma gives_iff : v.Gives patterns ↔
    ∃ content calls, request v.call = (.ok content, calls) ∧ readAnswer content = .ok (some patterns) := by
  constructor
  · rintro ⟨n, content, hn, hfailed, hanswered, hread⟩
    refine ⟨content.getD [], 0 + n + 1, ?_, hread⟩
    refine tryFrom_of_answered hn (fun m hm => ?_) ?_
    · rw [Nat.zero_add]
      exact hfailed m hm
    · rw [Nat.zero_add, hanswered]
  · rintro ⟨text, calls, hrequest, hread⟩
    rcases request_cases v.call with ⟨n, content, hn, hfailed, hanswered, heq⟩ | ⟨-, message, heq⟩
    · rw [heq, Prod.mk.injEq, Except.ok.injEq] at hrequest
      rw [← hrequest.1] at hread
      exact ⟨n, content, hn, hfailed, hanswered, hread⟩
    · rw [heq] at hrequest
      cases hrequest

lemma get?_filter (cache : Cache) (key other : Text) :
    Table.get? (cache.filter (·.1 ≠ key)) other = if other = key then none else cache.get? other := by
  induction cache with
  | nil => exact (ite_self none).symm
  | cons entry cache ih =>
    obtain ⟨name, e⟩ := entry
    by_cases hname : name = key
    · rw [filter_cons_of_neg (by simpa using hname), ih, Table.get?]
      split_ifs with hother hsame
      · rfl
      · exact absurd (hsame.symm.trans hname) hother
      · rfl
    · rw [filter_cons_of_pos (by simpa using hname), Table.get?, ih, Table.get?]
      split_ifs with hsame hother
      · exact absurd (hsame.trans hother) hname
      · rfl
      · rfl
      · rfl

lemma isFresh_iff {ttl now : Int} : e.isFresh ttl now = true ↔ now - e.storedAt < ttl * 1000000 :=
  decide_eq_true_iff

lemma visit_of_fresh (he : cache.get? v.payload = some e) (hfresh : v.asked - e.storedAt < s.ttl * 1000000)
    :
    s.visit cache v = ⟨.ok e.patterns, 0, cache⟩ := by
  have hlook : cache.get? (Action.payload v.actions) = some e := he
  rw [visit, recognize, hlook]
  exact if_pos (isFresh_iff.2 hfresh)

lemma visit_of_expired (h : ∀ e, cache.get? v.payload = some e → s.ttl * 1000000 ≤ v.asked - e.storedAt) :
    s.visit cache v =
      outcomeOf (cache.filter (·.1 ≠ v.payload)) v.payload v.answered (request v.call) := by
  cases hlook : cache.get? (Action.payload v.actions) with
  | none =>
    rw [visit, recognize, hlook]
    rfl
  | some e =>
    have hstale : ¬(e.isFresh s.ttl v.asked = true) := by
      rw [isFresh_iff, Int.not_lt]
      exact h e hlook
    rw [visit, recognize, hlook]
    exact if_neg hstale

lemma calls_outcomeOf (cache : Cache) (payload : Text) (answered : Int) (r : Except Text Text × Nat) :
    (outcomeOf cache payload answered r).calls = r.2 := by
  rcases r with ⟨message | content, calls⟩
  · rfl
  · rw [outcomeOf]
    split <;> rfl

lemma outcomeOf_of_read {content : Text} (h : readAnswer content = .ok (some patterns))
    (cache : Cache) (payload : Text) (answered : Int) (calls : Nat) : outcomeOf cache payload answered (.ok content, calls) =
      ⟨.ok patterns, calls, cache.put payload ⟨patterns, answered⟩⟩ := by
  rw [outcomeOf, h]

lemma cache_outcomeOf (cache : Cache) (payload : Text) (answered : Int) {r : Except Text Text × Nat}
    (h : ∀ content patterns, r.1 = .ok content → readAnswer content ≠ .ok (some patterns)) :
    (outcomeOf cache payload answered r).cache = cache := by
  rcases r with ⟨message | content, calls⟩
  · rfl
  · rw [outcomeOf]
    split
    · rfl
    · rfl
    · rename_i patterns hread
      exact absurd hread (h content patterns rfl)

lemma gives_unique {others : List Pattern} (h : v.Gives patterns) (hothers : v.Gives others) :
    patterns = others := by
  obtain ⟨content, calls, hrequest, hread⟩ := gives_iff.1 h
  obtain ⟨content', calls', hrequest', hread'⟩ := gives_iff.1 hothers
  rw [hrequest, Prod.mk.injEq, Except.ok.injEq] at hrequest'
  rw [← hrequest'.1, hread, Except.ok.injEq, Option.some.injEq] at hread'
  exact hread'

lemma calls_request (call : Nat → Call) : 1 ≤ (request call).2 ∧ (request call).2 ≤ 3 := by
  rcases request_cases call with ⟨n, content, hn, -, -, hrequest⟩ | ⟨-, message, hrequest⟩ <;>
  · rw [hrequest]
    omega

/-- **A visit without a fresh entry** calls the service. -/
lemma asksService_of_expired
    (h : ∀ e, cache.get? v.payload = some e → s.ttl * 1000000 ≤ v.asked - e.storedAt) :
    s.AsksService cache v := by
  have hvisit := visit_of_expired h
  have hcalls : (s.visit cache v).calls = (request v.call).2 := by
    rw [hvisit, calls_outcomeOf]
  obtain ⟨hpos, hle⟩ := calls_request v.call
  rw [← hcalls] at hpos hle
  by_cases hgives : ∃ patterns, v.Gives patterns
  · obtain ⟨patterns, hpatterns⟩ := hgives
    obtain ⟨content, calls, hrequest, hread⟩ := gives_iff.1 hpatterns
    rw [hrequest, outcomeOf_of_read hread] at hvisit
    refine ⟨h, hpos, hle, fun others hothers => ?_, fun e => ?_, fun other hother => ?_⟩
    · rw [hvisit, gives_unique hothers hpatterns]
    · rw [hvisit, Table.get?_put, if_pos rfl, Option.some.injEq]
      constructor
      · rintro rfl
        exact ⟨hpatterns, rfl⟩
      · rintro ⟨hothers, htime⟩
        rw [gives_unique hpatterns hothers, ← htime]
    · rw [hvisit, Table.get?_put, if_neg hother.symm, get?_filter, if_neg hother]
  · have hcache : (s.visit cache v).cache = cache.filter (·.1 ≠ v.payload) := by
      rw [hvisit]
      refine cache_outcomeOf _ _ _ fun content patterns hcontent hread => ?_
      exact hgives ⟨patterns, gives_iff.2 ⟨content, _, Prod.ext hcontent rfl, hread⟩⟩
    refine ⟨h, hpos, hle, fun patterns hpatterns => absurd ⟨patterns, hpatterns⟩ hgives, fun e => ?_,
      fun other hother => ?_⟩
    · rw [hcache, get?_filter, if_pos rfl]
      exact iff_of_false (Option.some_ne_none e).symm fun h => hgives ⟨e.patterns, h.1⟩
    · rw [hcache, get?_filter, if_neg hother]

/-- **One visit.**  A fresh entry for its question serves it and changes nothing, or the visit calls
the service. -/
lemma visit_cases (s : Service) (cache : Cache) (v : Visit) :
    (∃ e, cache.get? v.payload = some e ∧ v.asked - e.storedAt < s.ttl * 1000000 ∧
        s.visit cache v = ⟨.ok e.patterns, 0, cache⟩) ∨ s.AsksService cache v := by
  by_cases hfresh : ∃ e, cache.get? v.payload = some e ∧ v.asked - e.storedAt < s.ttl * 1000000
  · obtain ⟨e, he, hrecent⟩ := hfresh
    exact .inl ⟨e, he, hrecent, visit_of_fresh he hrecent⟩
  · refine .inr (asksService_of_expired fun e he => ?_)
    by_contra hrecent
    exact hfresh ⟨e, he, Int.not_le.1 hrecent⟩

end Visits

/-! ## Whole runs -/

/-- What the cache of a run has to do with its visits. -/
structure Records (s : Service) (past : List Visit) : Prop where
  /-- An entry was stored by a visit. -/
  stored : ∀ key e, (s.cacheAfter past).get? key = some e → ∃ before u, (∃ later, past = before ++ u :: later) ∧
    u.payload = key ∧ s.Stores before u e.patterns ∧ e.storedAt = u.answered
  /-- What a visit has stored is there until a later one has found it expired. -/
  kept : ∀ before u later patterns, past = before ++ u :: later → s.Stores before u patterns →
    (s.cacheAfter past).get? u.payload = some ⟨patterns, u.answered⟩ ∨
      ∃ w ∈ later, s.ttl * 1000000 ≤ w.asked - u.answered

section Runs

variable {s : Service}

lemma cacheAfter_concat (s : Service) (past : List Visit) (v : Visit) :
    s.cacheAfter (past ++ [v]) = (s.outcomeAfter past v).cache := by
  rw [cacheAfter, foldl_append]
  rfl

lemma concat_eq_append_cons {later : List Visit} (h : past ++ [v] = before ++ u :: later) :
    (before = past ∧ u = v ∧ later = []) ∨ ∃ rest, later = rest ++ [v] ∧ past = before ++ u :: rest := by
  rcases eq_nil_or_concat later with rfl | ⟨rest, w, rfl⟩
  · obtain ⟨hpast, hv⟩ := append_inj' h rfl
    exact .inl ⟨hpast.symm, (cons.inj hv).1.symm, rfl⟩
  · rw [concat_eq_append, ← cons_append, ← append_assoc] at h
    obtain ⟨hpast, hv⟩ := append_inj' h rfl
    rw [concat_eq_append, (cons.inj hv).1]
    exact .inr ⟨rest, rfl, hpast⟩

lemma Records.stored_concat (h : s.Records past) (v : Visit) (key : Text) (e : Entry)
    (he : (s.cacheAfter (past ++ [v])).get? key = some e) :
    ∃ before u, (∃ later, past ++ [v] = before ++ u :: later) ∧ u.payload = key ∧
      s.Stores before u e.patterns ∧ e.storedAt = u.answered := by
  have hbefore : (s.cacheAfter past).get? key = some e → ∃ before u,
      (∃ later, past ++ [v] = before ++ u :: later) ∧ u.payload = key ∧
        s.Stores before u e.patterns ∧ e.storedAt = u.answered := by
    intro hold
    obtain ⟨before, u, ⟨later, rfl⟩, hrest⟩ := h.stored key e hold
    exact ⟨before, u, ⟨later ++ [v], by simp⟩, hrest⟩
  rw [cacheAfter_concat, outcomeAfter] at he
  rcases visit_cases s (s.cacheAfter past) v with ⟨_, -, -, hvisit⟩ | hasks
  · rw [hvisit] at he
    exact hbefore he
  · by_cases hkey : key = v.payload
    · subst hkey
      obtain ⟨hgives, htime⟩ := (hasks.get?_payload e).1 he
      exact ⟨past, v, ⟨[], rfl⟩, rfl, ⟨Nat.one_le_iff_ne_zero.1 hasks.calls_pos, hgives⟩, htime⟩
    · rw [hasks.get?_other key hkey] at he
      exact hbefore he

/-- One more visit: what was stored is still there, or the visit has found it expired. -/
lemma Records.kept_concat (h : s.Records past) (v : Visit) (before : List Visit) (u : Visit)
    (later : List Visit) (patterns : List Pattern) (hrun : past ++ [v] = before ++ u :: later)
    (hstores : s.Stores before u patterns) :
    (s.cacheAfter (past ++ [v])).get? u.payload = some ⟨patterns, u.answered⟩ ∨
      ∃ w ∈ later, s.ttl * 1000000 ≤ w.asked - u.answered := by
  rw [cacheAfter_concat, outcomeAfter]
  rcases concat_eq_append_cons hrun with ⟨rfl, rfl, rfl⟩ | ⟨rest, rfl, hpast⟩
  · rcases visit_cases s (s.cacheAfter before) u with ⟨_, -, -, hvisit⟩ | hasks
    · have hcalls := hstores.1
      rw [outcomeAfter, hvisit] at hcalls
      exact absurd rfl hcalls
    · exact .inl ((hasks.get?_payload _).2 ⟨hstores.2, rfl⟩)
  · rcases h.kept before u rest patterns hpast hstores with hentry | ⟨w, hw, hexpired⟩
    · rcases visit_cases s (s.cacheAfter past) v with ⟨_, -, -, hvisit⟩ | hasks
      · rw [hvisit]
        exact .inl hentry
      · by_cases hsame : u.payload = v.payload
        · rw [hsame] at hentry
          exact .inr ⟨v, by simp, hasks.expired _ hentry⟩
        · rw [hasks.get?_other _ hsame]
          exact .inl hentry
    · exact .inr ⟨w, mem_append_left _ hw, hexpired⟩

/-- **The records of a run** are kept from the start. -/
lemma records (s : Service) (past : List Visit) : s.Records past := by
  induction past using reverseRecOn with
  | nil =>
    refine ⟨fun key e he => ?_, fun before u later patterns hpast => ?_⟩
    · cases he
    · simp at hpast
  | append_singleton past v ih => exact ⟨ih.stored_concat v, ih.kept_concat v⟩

lemma Serves.get?_eq (h : s.Serves past v before u patterns) (hclock : Forward (past ++ [v])) :
    (s.cacheAfter past).get? v.payload = some ⟨patterns, u.answered⟩ := by
  obtain ⟨later, rfl⟩ := h.earlier
  rw [← h.payload_eq]
  rcases (records s _).kept before u later patterns rfl h.stores with hentry | ⟨w, hw, hexpired⟩
  · exact hentry
  · have hmem : w ∈ before ++ u :: later := by simp [hw]
    have hfirst := hclock.1 w (mem_append_left _ hmem)
    have hsecond := (pairwise_append.1 hclock.2).2.2 w hmem v (mem_singleton_self v)
    have hrecent := h.recent
    omega

lemma exists_serves (he : (s.cacheAfter past).get? v.payload = some e)
    (hrecent : v.asked - e.storedAt < s.ttl * 1000000) :
    ∃ before u, s.Serves past v before u e.patterns := by
  obtain ⟨before, u, hearlier, hpayload, hstores, htime⟩ := (records s past).stored _ e he
  exact ⟨before, u, hearlier, hpayload, hstores, htime ▸ hrecent⟩

lemma Stores.result_eq (h : s.Stores before u patterns) :
    (s.outcomeAfter before u).result = .ok patterns := by
  rcases visit_cases s (s.cacheAfter before) u with ⟨_, -, -, hvisit⟩ | hasks
  · have hcalls := h.1
    rw [outcomeAfter, hvisit] at hcalls
    exact absurd rfl hcalls
  · exact hasks.result_eq patterns h.2

end Runs

/-- **The cache over whole runs.**  After every run, with a clock that never goes back, a visit
makes no call exactly if an earlier visit has stored patterns for the same question less than the
time that answers are kept ago.  Then it gives the patterns of that visit, which are in the cache,
and leaves the cache as it is.  Otherwise it makes one to three calls, and afterwards the entry for
its question is what it has got itself at the time when the answer came: there is none if no call
was answered or the answer could not be read, whatever was there before.  Entries for other
questions never change. -/
theorem visit_after_run (s : Service) (past : List Visit) (v : Visit) (hclock : Forward (past ++ [v])) :
    ((s.outcomeAfter past v).calls = 0 ↔ ∃ before u patterns, s.Serves past v before u patterns) ∧
    (∀ before u patterns, s.Serves past v before u patterns →
      (s.cacheAfter past).get? v.payload = some ⟨patterns, u.answered⟩ ∧
      (s.outcomeAfter past v).result = .ok patterns ∧ (s.outcomeAfter before u).result = .ok patterns ∧
      (s.outcomeAfter past v).cache = s.cacheAfter past) ∧
    ((s.outcomeAfter past v).calls ≠ 0 →
      1 ≤ (s.outcomeAfter past v).calls ∧ (s.outcomeAfter past v).calls ≤ 3 ∧
      (∀ patterns, v.Gives patterns → (s.outcomeAfter past v).result = .ok patterns) ∧
      ∀ e, (s.outcomeAfter past v).cache.get? v.payload = some e ↔
        v.Gives e.patterns ∧ e.storedAt = v.answered) ∧
    ∀ other ≠ v.payload,
      (s.outcomeAfter past v).cache.get? other = (s.cacheAfter past).get? other := by
  rcases visit_cases s (s.cacheAfter past) v with ⟨e, he, hrecent, hvisit⟩ | hasks
  · have houtcome : s.outcomeAfter past v = ⟨.ok e.patterns, 0, s.cacheAfter past⟩ := hvisit
    obtain ⟨before, u, hserves⟩ := exists_serves he hrecent
    rw [houtcome]
    refine ⟨iff_of_true rfl ⟨before, u, e.patterns, hserves⟩, fun before' u' patterns h => ?_,
      fun h => absurd rfl h, fun _ _ => rfl⟩
    have hentry := h.get?_eq hclock
    have heq : e = ⟨patterns, u'.answered⟩ := Option.some.inj (he.symm.trans hentry)
    exact ⟨hentry, by rw [heq], h.stores.result_eq, rfl⟩
  · have hcalls : (s.outcomeAfter past v).calls ≠ 0 := Nat.one_le_iff_ne_zero.1 hasks.calls_pos
    have hnone : ∀ before u patterns, ¬s.Serves past v before u patterns := by
      intro before u patterns h
      have hexpired := hasks.expired _ (h.get?_eq hclock)
      have hrecent := h.recent
      dsimp only at hexpired
      omega
    refine ⟨iff_of_false hcalls ?_, fun before u patterns h => absurd h (hnone before u patterns),
      fun _ => ⟨hasks.calls_pos, hasks.calls_le, hasks.result_eq, hasks.get?_payload⟩, hasks.get?_other⟩
    rintro ⟨before, u, patterns, h⟩
    exact hnone before u patterns h

/-- A question about one click whose calls are all answered with the same content. -/
def clickVisit (asked answered : Int) (content : Text) : Visit :=
  ⟨[⟨"click", none, none⟩], asked, answered, fun _ => .answered (some content)⟩

/-- An answer that cannot be read is not kept; an empty list is, and it serves a visit up to the
last microsecond. -/
theorem empty_answer_served :
    Forward [clickVisit 0 1 "?", clickVisit 2 3 "[]", clickVisit 300000002 300000003 "?"] ∧
      (outcomeAfter ⟨"m", 500, 300⟩ [clickVisit 0 1 "?"] (clickVisit 2 3 "[]")).calls = 1 ∧
      (outcomeAfter ⟨"m", 500, 300⟩ [clickVisit 0 1 "?", clickVisit 2 3 "[]"]
        (clickVisit 300000002 300000003 "?")).calls = 0 ∧
      (outcomeAfter ⟨"m", 500, 300⟩ [clickVisit 0 1 "?", clickVisit 2 3 "[]"]
        (clickVisit 300000002 300000003 "?")).result = .ok [] := by
  have hclock : Forward ([clickVisit 0 1 "?", clickVisit 2 3 "[]"] ++
      [clickVisit 300000002 300000003 "?"]) := by
    simp [Forward, clickVisit]
  have hcalls : (outcomeAfter ⟨"m", 500, 300⟩ [clickVisit 0 1 "?"] (clickVisit 2 3 "[]")).calls = 1 := by
    decide +kernel
  have hgives : (clickVisit 2 3 "[]").Gives [] := ⟨0, some "[]", by decide, by simp, rfl, rfl⟩
  have hserves : Serves ⟨"m", 500, 300⟩ [clickVisit 0 1 "?", clickVisit 2 3 "[]"]
      (clickVisit 300000002 300000003 "?") [clickVisit 0 1 "?"] (clickVisit 2 3 "[]") [] :=
    ⟨⟨[], rfl⟩, rfl, ⟨by rw [hcalls]; decide, hgives⟩, by decide⟩
  obtain ⟨hserved, hresult, -⟩ := visit_after_run _ _ _ hclock
  exact ⟨hclock, hcalls, hserved.2 ⟨_, _, _, hserves⟩, (hresult _ _ _ hserves).2.1⟩

end Restage.Service
