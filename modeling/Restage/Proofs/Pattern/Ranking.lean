import Mathlib.Tactic.Common
import Restage.Pattern.Recognizer

/-!
# Ranking

The patterns of a reply are ranked by their confidence.  A ranking has the same patterns, none
before a more confident one, and equally confident ones in the order in which they were given.
There is one such list only (`IsRanking.unique`), and it is what a consultation gives.
-/

namespace Restage

open List

/-- The patterns in `out` are those in `given`, ranked by their confidence. -/
structure IsRanking (given out : List Pattern) : Prop where
  items : out.Perm given
  descending : out.Pairwise fun p q => q.confidence.weight ≤ p.confidence.weight
  /-- Equally confident patterns stand in the order in which they were given. -/
  stable : ∀ w, (out.filter (·.confidence.weight = w)) = given.filter (·.confidence.weight = w)

variable {given out out' : List Pattern}

lemma isRanking_ranked (items : List (Option Pattern)) : IsRanking (items.filterMap id) (ranked items) := by
  have hitems : (ranked items).Perm (items.filterMap id) := mergeSort_perm _ _
  have htrans : ∀ p q r : Pattern, decide (q.confidence.weight ≤ p.confidence.weight) = true →
      decide (r.confidence.weight ≤ q.confidence.weight) = true →
      decide (r.confidence.weight ≤ p.confidence.weight) = true := by
    simp only [decide_eq_true_eq]
    omega
  have htotal : ∀ p q : Pattern, (decide (q.confidence.weight ≤ p.confidence.weight) ||
      decide (p.confidence.weight ≤ q.confidence.weight)) = true := by
    simp only [Bool.or_eq_true, decide_eq_true_eq]
    omega
  refine ⟨hitems, (pairwise_mergeSort htrans htotal _).imp of_decide_eq_true, fun w => ?_⟩
  -- Patterns of one weight are sorted as they are given, so sorting keeps them in this order.
  have hsame : ((items.filterMap id).filter (·.confidence.weight = w)).Pairwise fun p q =>
      decide (q.confidence.weight ≤ p.confidence.weight) = true := by
    refine pairwise_of_forall_mem_list fun p hp q hq => ?_
    rw [of_decide_eq_true (mem_filter.1 hp).2, of_decide_eq_true (mem_filter.1 hq).2]
    exact decide_eq_true (Nat.le_refl w)
  have hkept := (sublist_mergeSort htrans htotal hsame filter_sublist).filter (·.confidence.weight = w)
  simp only [filter_filter, Bool.and_self] at hkept
  exact (hkept.eq_of_length (hitems.filter _).length_eq.symm).symm

/-- The first pattern of a ranking has the greatest weight that there is, so it is the first one of
that weight in every ranking. -/
lemma IsRanking.unique (h : IsRanking given out) (h' : IsRanking given out') : out = out' := by
  have hstable : ∀ w, (out.filter (·.confidence.weight = w)) = out'.filter (·.confidence.weight = w) :=
    fun w => (h.stable w).trans (h'.stable w).symm
  have hdescending := h.descending
  have hdescending' := h'.descending
  clear h h'
  induction out generalizing out' with
  | nil =>
    cases out' with
    | nil => rfl
    | cons q out' => simpa using hstable q.confidence.weight
  | cons p out ih =>
    cases out' with
    | nil => simpa using hstable p.confidence.weight
    | cons q out' =>
      rw [pairwise_cons] at hdescending hdescending'
      have hmem : ∀ r, r ∈ p :: out ↔ r ∈ q :: out' := fun r => by
        simpa using congrArg (r ∈ ·) (hstable r.confidence.weight)
      have hle : ∀ r ∈ p :: out, r.confidence.weight ≤ p.confidence.weight :=
        forall_mem_cons.2 ⟨Nat.le_refl _, hdescending.1⟩
      have hle' : ∀ r ∈ q :: out', r.confidence.weight ≤ q.confidence.weight :=
        forall_mem_cons.2 ⟨Nat.le_refl _, hdescending'.1⟩
      have hweight : p.confidence.weight = q.confidence.weight :=
        Nat.le_antisymm (hle' p ((hmem p).1 mem_cons_self)) (hle q ((hmem q).2 mem_cons_self))
      have hfirst := hstable p.confidence.weight
      rw [filter_cons_of_pos (by simp), filter_cons_of_pos (by simp [hweight])] at hfirst
      obtain rfl := (cons.inj hfirst).1
      refine congrArg (p :: ·) (ih (fun w => ?_) hdescending.2 hdescending'.2)
      have hw := hstable w
      rw [filter_cons, filter_cons] at hw
      split_ifs at hw
      · exact (cons.inj hw).2
      · exact hw

variable {recognizer : Option Recognizer} {asked : List (List Action)} {actions : List Action}

/-- A consultation fails only if the recognizer is asked and its reply cannot be listed. -/
lemma consult_eq_error_iff {message : Text} :
    (consult recognizer asked actions).1 = .error message ↔
      ∃ r, recognizer = some r ∧ actions ≠ [] ∧ r.reply asked actions = .unlistable message := by
  have hpatterns : ∀ reply : Reply, reply.patterns = .error message ↔ reply = .unlistable message := by
    intro reply
    cases reply <;> simp [Reply.patterns]
  cases recognizer with
  | none => simp [consult]
  | some r => cases actions <;> simp [consult, hpatterns]

/-- **A consultation** asks the recognizer once if there is one and anything to ask about, and not
at all otherwise.  It fails exactly on a reply that cannot be listed.  It gives the ranking of the
patterns in the list that the recognizer gives, and nothing if the recognizer fails, gives nothing
or is not asked. -/
theorem consult_ranks (recognizer : Option Recognizer) (asked : List (List Action))
    (actions : List Action) :
    (consult recognizer asked actions).2 =
        asked ++ (if recognizer.isSome ∧ actions ≠ [] then [actions] else []) ∧
      (∀ message, (consult recognizer asked actions).1 = .error message ↔
        ∃ r, recognizer = some r ∧ actions ≠ [] ∧ r.reply asked actions = .unlistable message) ∧
      (∀ r items, recognizer = some r → actions ≠ [] → r.reply asked actions = .found items →
        ∀ out, (consult recognizer asked actions).1 = .ok out ↔
          IsRanking (items.filterMap id) out) ∧
      ((∀ r, recognizer = some r → actions ≠ [] → r.reply asked actions = .nothing ∨
          ∃ message, r.reply asked actions = .failed message) →
        (consult recognizer asked actions).1 = .ok []) := by
  cases recognizer with
  | none => simp [consult]
  | some r =>
    cases actions with
    | nil => simp [consult]
    | cons action actions =>
      have hconsult : (consult (some r) asked (action :: actions)).1 =
        (r.reply asked (action :: actions)).patterns := rfl
      refine ⟨by simp [consult], fun _ => consult_eq_error_iff, ?_, fun hnone => ?_⟩
      · rintro _ items ⟨⟩ - hreply out
        rw [hconsult, hreply, Reply.patterns, Except.ok.injEq]
        have hranked := isRanking_ranked items
        exact ⟨fun hout => hout ▸ hranked, hranked.unique⟩
      · rw [hconsult]
        rcases hnone r rfl (cons_ne_nil _ _) with hreply | ⟨message, hreply⟩ <;> rw [hreply] <;> rfl

/-- Of two patterns without confidence the first one stays before the other. -/
theorem consult_ranks_ties :
    (consult (some ⟨fun _ _ => .found [some { name := "open" }, none,
        some { name := "log in", confidence := ⟨.finite false 1, by decide +kernel⟩ },
        some { name := "search" }]⟩) [] [{ action := "click" }]).1 =
      .ok [{ name := "log in", confidence := ⟨.finite false 1, by decide +kernel⟩ },
        { name := "open" }, { name := "search" }] := by
  refine ((consult_ranks _ _ _).2.2.1 _ _ rfl (by simp) rfl _).2
    ⟨by decide +kernel, by decide +kernel, fun w => ?_⟩
  have hzero : Confidence.zero.weight = 0 := rfl
  have hone : ∀ h, Confidence.weight ⟨.finite false 1, h⟩ = 1 := fun _ => rfl
  simp only [filterMap_cons, filterMap_nil, id, filter_cons, filter_nil, hzero, hone]
  rcases w with _ | _ | w <;> rfl

/-- A number is no list, and the consultation fails where it should give nothing. -/
theorem consult_fails_on_number :
    consult (some ⟨fun _ _ => .unlistable "'int' object is not iterable"⟩) []
        [{ action := "click" }] =
      (.error "'int' object is not iterable".toList, [[{ action := "click" }]]) := rfl

end Restage
