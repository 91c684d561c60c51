import Restage.Proofs.Pattern.CacheRuns

/-!
# Questions identify action lists

The cache of the pattern service knows an answer by the text of the question.  That no answer is
given to other actions rests on the writer: what is written for a string, a member or an action ends
where it says so itself, whatever follows (`writeString_append_inj`), and so do lists of such things
(`join_append_inj`).  So the text of a list of actions determines the list.
-/

namespace Restage

open List

/-! ## What the writer writes ends by itself -/

namespace Json

variable {t u r s : Text}

lemma writeString_append_inj (h : writeString t ++ r = writeString u ++ s) : t = u ∧ r = s := by
  rw [writeString_append, writeString_append] at h
  have hread := congrArg stringBody? (cons.inj h).2
  rw [stringBody?_write, stringBody?_write, Option.some_inj] at hread
  exact Prod.mk.inj hread

/-- A list between its items and a closing character, of items that end by themselves. -/
lemma join_append_inj {α : Type} {f : α → Text} {closer : Char}
    (hf : ∀ {a b : α} {r s : Text}, f a ++ r = f b ++ s → a = b ∧ r = s)
    (hhead : ∀ (a : α) (r s : Text), closer :: s ≠ f a ++ r) (hcloser : closer ≠ ',') {xs ys : List α}
    (h : Text.join ", " (xs.map f) ++ closer :: r = Text.join ", " (ys.map f) ++ closer :: s) :
    xs = ys ∧ r = s := by
  have hcons : ∀ a xs r, Text.join ", " ((a :: xs).map f) ++ closer :: r =
      f a ++ (if xs = [] then closer :: r else ',' :: ' ' :: (Text.join ", " (xs.map f) ++ closer :: r)) := by
    rintro a (_ | ⟨b, xs⟩) r <;> simp [Text.join]
  induction xs generalizing ys with
  | nil =>
    cases ys with
    | nil => exact ⟨rfl, (cons.inj h).2⟩
    | cons b ys => exact absurd (h.trans (hcons b ys s)) (hhead b _ r)
  | cons a xs ih =>
    cases ys with
    | nil => exact absurd (h.symm.trans (hcons a xs r)) (hhead a _ s)
    | cons b ys =>
      rw [hcons, hcons] at h
      obtain ⟨rfl, hrest⟩ := hf h
      -- A comma follows an item if there is another one, and the closing character if there is
      -- none.
      split_ifs at hrest with hxs hys hys
      · exact ⟨by rw [hxs, hys], (cons.inj hrest).2⟩
      · exact absurd (cons.inj hrest).1 hcloser
      · exact absurd (cons.inj hrest).1.symm hcloser
      · obtain ⟨rfl, hend⟩ := ih (cons.inj (cons.inj hrest).2).2
        exact ⟨rfl, hend⟩

/-- A member whose value is a string. -/
def writeMember (m : Text × Text) : Text := writeString m.1 ++ ": " ++ writeString m.2

lemma writeMember_append_inj {m n : Text × Text} (h : writeMember m ++ r = writeMember n ++ s) :
    m = n ∧ r = s := by
  simp only [writeMember, append_assoc] at h
  obtain ⟨hkey, hrest⟩ := writeString_append_inj h
  obtain ⟨hvalue, hend⟩ := writeString_append_inj (append_cancel_left hrest)
  exact ⟨Prod.ext hkey hvalue, hend⟩

lemma write_ofStrings (members : List (Text × Text)) :
    write (ofStrings members) = '\x7b' :: (Text.join ", " (members.map writeMember) ++ ['\x7d']) := by
  have hmembers : writeMembers (members.map fun m => (m.1, .string m.2)) =
      Text.join ", " (members.map writeMember) := by
    induction members with
    | nil => rfl
    | cons m more ih =>
      cases more with
      | nil => simp [Text.join, writeMembers, write, writeMember]
      | cons next more =>
        rw [map_cons, writeMembers.eq_3 _ _ _ (by simp), ih, write]
        simp [Text.join, writeMember]
  rw [ofStrings, write, hmembers]
  rfl

lemma writeItems_eq_join (items : List Value) : writeItems items = Text.join ", " (items.map write) := by
  induction items with
  | nil => rfl
  | cons v rest ih =>
    cases rest with
    | nil => simp [Text.join, writeItems]
    | cons next rest =>
      rw [writeItems.eq_3 _ _ (by simp), ih]
      simp [Text.join]

end Json

/-! ## Actions -/

namespace Action

/-- The parts of an action that are there, with their keys. -/
def parts (a : Action) : List (Text × Text) :=
  ("action", a.action) :: ((a.target.map ("target".toList, ·)).toList ++ (a.value.map ("value".toList, ·)).toList)

lemma toJson_eq (a : Action) : a.toJson = Json.ofStrings a.parts := by
  obtain ⟨action, _ | target, _ | value⟩ := a <;> rfl

lemma parts_injective : Function.Injective parts := by
  rintro ⟨action, _ | target, _ | value⟩ ⟨action', _ | target', _ | value'⟩ h <;> simp_all [parts]

lemma toJson_append_inj {a b : Action} {r s : Text}
    (h : Json.write a.toJson ++ r = Json.write b.toJson ++ s) : a = b ∧ r = s := by
  rw [toJson_eq, toJson_eq, Json.write_ofStrings, Json.write_ofStrings, cons_append, cons_append,
    append_assoc, append_assoc] at h
  have hhead : ∀ (m : Text × Text) (r s : Text), '\x7d' :: s ≠ Json.writeMember m ++ r := by
    rintro m r s ⟨⟩
  obtain ⟨hparts, hrest⟩ :=
    Json.join_append_inj Json.writeMember_append_inj hhead (by decide) (cons.inj h).2
  exact ⟨parts_injective hparts, hrest⟩

lemma payload_injective : Function.Injective payload := by
  intro actions others h
  simp only [payload, Json.write, Json.writeItems_eq_join, map_map] at h
  have hhead : ∀ (a : Action) (r s : Text), ']' :: s ≠ Json.write a.toJson ++ r := by
    intro a r s hclosed
    cases hclosed
  exact (Json.join_append_inj toJson_append_inj hhead (by decide) (cons.inj h).2).1

end Action

/-- **Questions identify action lists**: lists with the same text are equal, and so a visit that
makes no call gives what an earlier visit with the same actions has got from the service. -/
theorem Service.payload_identifies_actions :
    (∀ actions others : List Action, Action.payload actions = Action.payload others → actions = others) ∧
      ∀ (s : Service) (past : List Visit) (v : Visit), (s.outcomeAfter past v).calls = 0 →
        ∃ before u later patterns, past = before ++ u :: later ∧ u.actions = v.actions ∧
          s.Stores before u patterns ∧ (s.outcomeAfter past v).result = .ok patterns := by
  refine ⟨fun _ _ h => Action.payload_injective h, fun s past v hcalls => ?_⟩
  rcases visit_cases s (s.cacheAfter past) v with ⟨e, he, hrecent, hvisit⟩ | hasks
  · obtain ⟨before, u, hserves⟩ := exists_serves he hrecent
    obtain ⟨later, hpast⟩ := hserves.earlier
    refine ⟨before, u, later, e.patterns, hpast, Action.payload_injective hserves.payload_eq, hserves.stores, ?_⟩
    rw [outcomeAfter, hvisit]
  · exact absurd hcalls (Nat.one_le_iff_ne_zero.1 hasks.calls_pos)

/-- A second click is served by the first one. -/
theorem Service.payload_identifies_actions_click :
    ∃ v, v.actions = [⟨"click", none, none⟩] ∧
      (outcomeAfter ⟨"m", 500, 300⟩ [clickVisit 2 3 "[]"] v).calls = 0 ∧
      ∃ before u later patterns, [clickVisit 2 3 "[]"] = before ++ u :: later ∧ u.actions = v.actions ∧
        Stores ⟨"m", 500, 300⟩ before u patterns ∧
        (outcomeAfter ⟨"m", 500, 300⟩ [clickVisit 2 3 "[]"] v).result = .ok patterns := by
  have hcalls : (outcomeAfter ⟨"m", 500, 300⟩ [clickVisit 2 3 "[]"] (clickVisit 4 5 "?")).calls = 0 := by
    decide +kernel
  exact ⟨_, rfl, hcalls, payload_identifies_actions.2 _ _ _ hcalls⟩

end Restage
