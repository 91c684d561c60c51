import Restage.Proofs.Conversion.Nesting
import Restage.Proofs.Conversion.Places
import Restage.Proofs.Pattern.Ranking
import Restage.Proofs.TypeScript.Weave

/-!
# The recognizer and the rest of the conversion

A recognizer may answer what it likes, and its answers are written into a sheet that the conversion
goes on writing on.  This module compares a walk without a recognizer with the same walk when there
is one.  They go in step: whatever is asked and answered, the two agree on everything but their
places, and their sheets differ by notes above the headers of methods.

The methods are those that the plain walk has left.  `walkVisits` lists them, each with the position
of its header and the actions that were recorded in it.  `notesOn` are the notes that a recognizer
makes on them, and `Twins` is the invariant of the two walks.  A mark on the one sheet and the mark
on the other point at the same header as long as the method is open, since a note is put in only
when a method is left and no other one is open then.
-/

namespace Restage.Conversion

open Text Java TypeScript List Walk

variable {g f : Frame} {sheet : Sheet} (t : Task) (asked : List (List Action)) {w : Walk}
  {fault : Fault} {note : Nat × Text} {l : Lookup} {fs gs : List Frame}

/-! ## Methods that have been left -/

/-- A method that has been left: its name, the position of its header and the actions that were
recorded in it. -/
structure Visit where
  name : Text
  mark : Nat
  actions : List Action
  deriving DecidableEq, Repr

/-- The visit of a method that stands on one line, after its header. -/
def inlineVisits (w : Walk) (line : Nat) (body name : Text) (mark : Nat) : List Visit :=
  match if body.isEmpty then .ok w else w.convert line body with
  | .ok after => [⟨name, mark, after.context.actions⟩]
  | .error _ => []

/-- The visit of a method, if it ends on the line of its header. -/
def methodVisits (l : Lookup) (w : Walk) (s : Statement) (info : ClassInfo) (style : Style)
    (sig : Signature) (annotations : List Text) (opened : Bool) : List Visit :=
  let ending := trim sig.ending
  if sig.isConstructor ∨ ending = ";".toList ∨ opened then []
  else
    let w := w.onSheet (·.blank)
    inlineVisits (w.startMethod l info style sig annotations) s.line (Walk.inlineBody ending) sig.name
      w.sheet.mark

/-- The visit of a method that a statement in the body of a class declares and ends. -/
def memberVisits (l : Lookup) (w : Walk) (s : Statement) (info : ClassInfo) (style : Style)
    (bodyDepth : Nat) : List Visit :=
  let (found, text) := splitAnnotations s.text
  if text.isEmpty ∨ style = .exception ∨ (classHeader? (stripGenerics text)).isSome then []
  else match signature? (some info.name) text with
    | some sig =>
      methodVisits l { w with pending := [] } s info style sig (w.pending ++ found)
        (bodyDepth < w.depth)
    | none => []

/-- The visits of a statement, given the construct that it stands in. -/
def withinVisits (l : Lookup) (w : Walk) (before : Nat) (s : Statement) : Option Frame → List Visit
  | some ⟨.classBody info style, depth⟩ =>
    if Walk.isClosersOnly s.text ∨ before ≠ depth then [] else memberVisits l w s info style depth
  | _ => []

/-- The visit that ends when a construct is left. -/
def leaveVisits (w : Walk) : Construct → List Visit
  | .method name mark => [⟨name, mark, w.context.actions⟩]
  | _ => []

/-- The visits that end when the constructs that are closed are left. -/
def unwindVisits (w : Walk) : List Frame → List Visit
  | [] => []
  | f :: outer =>
    if w.depth < f.depth then
      leaveVisits w f.construct ++ unwindVisits (w.leave none f.construct) outer
    else []

/-- The visits that end with a statement of a walk without a recognizer. -/
def stepVisits (l : Lookup) (w : Walk) (s : Statement) : List Visit :=
  if s.isComment then []
  else match (w.count s).within ⟨l, none⟩ w.depth s w.frames.head? with
    | .ok w' => withinVisits l (w.count s) w.depth s w.frames.head? ++ unwindVisits w' w'.frames
    | .error _ => []

/-- The visits of a walk without a recognizer, in order. -/
def walkVisits (l : Lookup) (w : Walk) : List Statement → List Visit
  | [] => []
  | s :: rest =>
    stepVisits l w s ++
      match w.step ⟨l, none⟩ s with
      | .ok w' => walkVisits l w' rest
      | .error _ => []

/-- The methods that the conversion of a file leaves. -/
def Task.visits (t : Task) : List Visit :=
  walkVisits t.surroundings.lookup t.start t.document.statements

/-! ## Notes -/

/-- What a recognizer has been asked about after some visits. -/
def askedAfter (r : Option Recognizer) (asked : List (List Action)) (visits : List Visit) :
    List (List Action) :=
  visits.foldl (fun asked v => (consult r asked v.actions).2) asked

/-- The note on a visit, with its position. -/
def noteOn (r : Option Recognizer) (asked : List (List Action)) (v : Visit) : List (Nat × Text) :=
  ((best? r asked v.actions).map fun best => (v.mark, Walk.patternNote best)).toList

/-- The notes on visits, with their positions. -/
def notesOn (r : Option Recognizer) (asked : List (List Action)) : List Visit → List (Nat × Text)
  | [] => []
  | v :: rest => noteOn r asked v ++ notesOn r (consult r asked v.actions).2 rest

/-- The fault of a reply on a visit, if it cannot be listed. -/
def breakOn (r : Option Recognizer) (asked : List (List Action)) (v : Visit) : Option Fault :=
  match (consult r asked v.actions).1 with
  | .error message => some (.unlistable v.actions message)
  | .ok _ => none

/-- The fault of the first reply on visits that cannot be listed. -/
def firstBreak (r : Option Recognizer) (asked : List (List Action)) : List Visit → Option Fault
  | [] => none
  | v :: rest => (breakOn r asked v).or (firstBreak r (consult r asked v.actions).2 rest)

section Notes

variable {r : Option Recognizer} {asked : List (List Action)} (visits : List Visit) (v : Visit)

lemma askedAfter_concat :
    askedAfter r asked (visits ++ [v]) = (consult r (askedAfter r asked visits) v.actions).2 := by
  rw [askedAfter, foldl_append]
  rfl

lemma notesOn_concat :
    notesOn r asked (visits ++ [v]) =
      notesOn r asked visits ++ noteOn r (askedAfter r asked visits) v := by
  induction visits generalizing asked with
  | nil => exact append_nil _
  | cons u visits ih =>
    rw [cons_append, notesOn, notesOn, ih, append_assoc]
    rfl

lemma firstBreak_append (later : List Visit) :
    firstBreak r asked (visits ++ later) =
      (firstBreak r asked visits).or (firstBreak r (askedAfter r asked visits) later) := by
  induction visits generalizing asked with
  | nil => rfl
  | cons v visits ih =>
    rw [cons_append, firstBreak, firstBreak, ih, Option.or_assoc]
    rfl

/-- The first visit that breaks the walk is the one whose reply cannot be listed. -/
lemma firstBreak_eq_some_iff {visits : List Visit} :
    firstBreak r asked visits = some fault ↔ ∃ earlier v later, visits = earlier ++ v :: later ∧
      firstBreak r asked earlier = none ∧ breakOn r (askedAfter r asked earlier) v = some fault := by
  constructor
  · intro h
    induction visits generalizing asked with
    | nil => cases h
    | cons v visits ih =>
      rw [firstBreak] at h
      cases hv : breakOn r asked v with
      | some found =>
        rw [hv] at h
        exact ⟨[], v, visits, rfl, rfl, hv.trans h⟩
      | none =>
        rw [hv] at h
        obtain ⟨earlier, u, later, rfl, hlisted, hu⟩ := ih h
        refine ⟨v :: earlier, u, later, rfl, ?_, hu⟩
        rw [firstBreak, hv, Option.none_or, hlisted]
  · rintro ⟨earlier, v, later, rfl, hlisted, hv⟩
    rw [firstBreak_append, hlisted, Option.none_or, firstBreak, hv, Option.some_or]

lemma mem_noteOn {v : Visit} (h : note ∈ noteOn r asked v) :
    note.1 = v.mark ∧ v.actions ≠ [] ∧ ∃ best, note.2 = Walk.patternNote best := by
  rw [noteOn, Option.mem_toList, Option.map_eq_some_iff] at h
  obtain ⟨best, hbest, rfl⟩ := h
  refine ⟨rfl, ?_, best, rfl⟩
  intro hactions
  rw [hactions] at hbest
  cases r <;> cases hbest

lemma mem_notesOn {visits : List Visit} (h : note ∈ notesOn r asked visits) :
    ∃ v ∈ visits, note.1 = v.mark ∧ v.actions ≠ [] ∧ ∃ best, note.2 = Walk.patternNote best := by
  induction visits generalizing asked with
  | nil => cases h
  | cons v visits ih =>
    rcases mem_append.1 h with h | h
    · exact ⟨v, by simp, mem_noteOn h⟩
    · obtain ⟨u, hu, hnote⟩ := ih h
      exact ⟨u, by simp [hu], hnote⟩

lemma marks_notesOn : ((notesOn r asked visits).map Prod.fst).Sublist (visits.map Visit.mark) := by
  induction visits generalizing asked with
  | nil => exact Sublist.refl _
  | cons v visits ih =>
    rw [notesOn, map_append]
    have hnote : ((noteOn r asked v).map Prod.fst).Sublist [v.mark] := by
      rw [noteOn]
      cases best? r asked v.actions with
      | none => exact nil_sublist _
      | some best => exact Sublist.refl _
    exact hnote.append ih

lemma askedAfter_eq (r : Option Recognizer) (asked : List (List Action)) (visits : List Visit) :
    askedAfter r asked visits =
      asked ++ if r.isSome then (visits.map Visit.actions).filter (· ≠ []) else [] := by
  induction visits generalizing asked with
  | nil => simp [askedAfter]
  | cons v visits ih =>
    have hstep : askedAfter r asked (v :: visits) =
        askedAfter r (consult r asked v.actions).2 visits := rfl
    rw [hstep, ih]
    cases r with
    | none => rfl
    | some r => cases hactions : v.actions <;> simp [consult, hactions]

end Notes

/-! ## Two walks side by side -/

/-- The line at a position is the header of a method with the given name. -/
def IsHeader (l : Lookup) (sheet : Sheet) (name : Text) (mark : Nat) : Prop :=
  ∃ style sig step ctx, sig.name = name ∧
    sheet.bodyTexts[mark]? = some (methodHeader l style sig step ctx).1.line

variable {mark mark' : Nat} {c : Construct} {calls : List Call}

lemma IsHeader.mono {sheet' : Sheet} {name : Text} (h : IsHeader l sheet name mark)
    (hbody : sheet.body <+: sheet'.body) : IsHeader l sheet' name mark := by
  obtain ⟨style, sig, step, ctx, hname, hline⟩ := h
  have htexts : sheet.bodyTexts <+: sheet'.bodyTexts := hbody.map Line.text
  obtain ⟨hlt, -⟩ := List.getElem?_eq_some_iff.1 hline
  obtain ⟨ts, hts⟩ := htexts
  refine ⟨style, sig, step, ctx, hname, ?_⟩
  rw [← hts, getElem?_append_left hlt]
  exact hline

lemma IsHeader.lt {name : Text} (h : IsHeader l sheet name mark) :
    mark < sheet.body.length := by
  obtain ⟨style, sig, step, ctx, -, hline⟩ := h
  obtain ⟨hlt, -⟩ := List.getElem?_eq_some_iff.1 hline
  rwa [Sheet.bodyTexts, length_map] at hlt

/-- Two marks of an open method: the first is that of its header, below all methods that have been
left, and the second has moved by the notes above it. -/
structure MarkTwins (l : Lookup) (notes : List (Nat × Text)) (visits : List Visit) (sheet : Sheet)
    (name : Text) (mark mark' : Nat) : Prop where
  header : IsHeader l sheet name mark
  below : ∀ v ∈ visits, v.mark < mark
  moved : mark' = (weave notes (sheet.body.take mark)).length

/-- Two frames that differ at most in the mark of a method. -/
def FrameTwins (l : Lookup) (notes : List (Nat × Text)) (visits : List Visit) (sheet : Sheet)
    (f g : Frame) : Prop :=
  (f.construct.kind ≠ .method ∧ g = f) ∨
    ∃ name mark mark' depth, f = ⟨.method name mark, depth⟩ ∧ g = ⟨.method name mark', depth⟩ ∧
      MarkTwins l notes visits sheet name mark mark'

/-- **The invariant.**  The second walk does what the first one does, and its sheet has notes on the
methods that have been left. -/
structure Twins (l : Lookup) (r : Option Recognizer) (asked : List (List Action))
    (visits : List Visit) (fs gs : List Frame) (a b : Walk) : Prop where
  bare : b.bare = a.bare
  noted : Noted (notesOn r asked visits) a.sheet b.sheet
  asks : b.asked = askedAfter r asked visits
  whole : a.broken = none
  breaks : b.broken = firstBreak r asked visits
  increasing : (visits.map Visit.mark).Pairwise (· < ·)
  headers : ∀ v ∈ visits, IsHeader l a.sheet v.name v.mark
  frames : List.Forall₂ (FrameTwins l (notesOn r asked visits) visits a.sheet) fs gs

/-- The invariant for the frames that the walks have. -/
def InStep (l : Lookup) (r : Option Recognizer) (asked : List (List Action)) (visits : List Visit)
    (a b : Walk) : Prop :=
  Twins l r asked visits a.frames b.frames a b

/-- Both computations fail in the same way, or both succeed and the results are related. -/
def Lockstep (R : Walk → Walk → Prop) (x y : Except Fault Walk) : Prop :=
  (∃ fault, x = .error fault ∧ y = .error fault) ∨ ∃ a b, x = .ok a ∧ y = .ok b ∧ R a b

namespace Lockstep

variable {R S : Walk → Walk → Prop} {x y : Except Fault Walk}

lemma ok {a b : Walk} (h : R a b) : Lockstep R (.ok a) (.ok b) := .inr ⟨a, b, rfl, rfl, h⟩

lemma bind {f g : Walk → Except Fault Walk} (h : Lockstep R x y)
    (hf : ∀ a b, x = .ok a → R a b → Lockstep S (f a) (g b)) :
    Lockstep S (x >>= f) (y >>= g) := by
  rcases h with ⟨fault, rfl, rfl⟩ | ⟨a, b, rfl, rfl, hab⟩
  · exact .inl ⟨fault, rfl, rfl⟩
  · exact hf a b rfl hab

end Lockstep

/-- A reply on the visits breaks the second computation, or both go in step. -/
def Compared (l : Lookup) (r : Option Recognizer) (asked : List (List Action)) (visits : List Visit)
    (x y : Except Fault Walk) : Prop :=
  (∃ fault, firstBreak r asked visits = some fault ∧ y = .error fault) ∨
    firstBreak r asked visits = none ∧ Lockstep (InStep l r asked visits) x y

lemma leaveVisits_of_ne (h : c.kind ≠ .method) : leaveVisits w c = [] := by
  cases c with
  | method name mark => exact absurd rfl h
  | skipped | classBody | block | commented => rfl

namespace Walk

variable {w : Walk} {r : Option Recognizer} {name : Text} {mark : Nat} {after : List (List Action)}

lemma exists_calls_of_leave (h : c.kind ≠ .method) :
    ∃ calls : List Call, calls.all plain = true ∧
      ∀ (w : Walk) (r : Option Recognizer), w.leave r c = w.onSheet (·.performAll calls) := by
  cases c with
  | method name mark => exact absurd rfl h
  | skipped | commented => exact ⟨[], rfl, fun _ _ => rfl⟩
  | block => exact ⟨[.closeScope], rfl, fun _ _ => rfl⟩
  | classBody info style =>
    cases style with
    | steps => exact ⟨[.blank], rfl, fun _ _ => rfl⟩
    | exception | page => exact ⟨[.closeScope, .blank], rfl, fun _ _ => rfl⟩

lemma finishMethod_silent (h : consult r w.asked w.context.actions = (.ok [], after)) :
    w.finishMethod r name mark = { w with context := w.context.leaveMethod.2, asked := after } := by
  rw [finishMethod, Context.leaveMethod]
  dsimp only
  rw [h]

lemma finishMethod_broken {message : Text}
    (h : consult r w.asked w.context.actions = (.error message, after)) :
    w.finishMethod r name mark =
      { w with context := w.context.leaveMethod.2, asked := after
               broken := w.broken.or (some (.unlistable w.context.actions message)) } := by
  rw [finishMethod, Context.leaveMethod]
  dsimp only
  rw [h]

lemma finishMethod_noted {best : Pattern} {others : List Pattern}
    (h : consult r w.asked w.context.actions = (.ok (best :: others), after)) :
    w.finishMethod r name mark =
      { w with context := w.context.leaveMethod.2, asked := after
               patterns := w.patterns.put name (best :: others)
               sheet := (w.sheet.insert? mark [patternNote best]).getD w.sheet } := by
  rw [finishMethod, Context.leaveMethod]
  dsimp only
  rw [h]

end Walk

lemma not_insert_of_plain (h : calls.all plain = true) : ∀ c ∈ calls, ∀ p lines, c ≠ .insert p lines := by
  rintro c hc p lines rfl
  exact absurd (all_eq_true.1 h _ hc) Bool.false_ne_true

section Frames

variable {l : Lookup} {notes : List (Nat × Text)} {visits : List Visit} {sheet sheet' : Sheet}

lemma MarkTwins.mono {name : Text} (h : MarkTwins l notes visits sheet name mark mark')
    (hbody : sheet.body <+: sheet'.body) : MarkTwins l notes visits sheet' name mark mark' := by
  refine ⟨h.header.mono hbody, h.below, ?_⟩
  obtain ⟨lines, hlines⟩ := hbody
  have hlt := h.header.lt
  rw [← hlines, take_append_of_le_length (by omega)]
  exact h.moved

lemma FrameTwins.mono (h : FrameTwins l notes visits sheet f g) (hbody : sheet.body <+: sheet'.body) : FrameTwins l notes visits sheet' f g := by
  refine h.imp_right ?_
  rintro ⟨name, mark, mark', depth, hf, hg, hmarks⟩
  exact ⟨name, mark, mark', depth, hf, hg, hmarks.mono hbody⟩

lemma FrameTwins.refl (h : f.construct.kind ≠ .method) :
    FrameTwins l notes visits sheet f f := .inl ⟨h, rfl⟩

lemma FrameTwins.depth_eq (h : FrameTwins l notes visits sheet f g) :
    g.depth = f.depth := by
  rcases h with ⟨-, rfl⟩ | ⟨name, mark, mark', depth, rfl, rfl, -⟩ <;> rfl

lemma frameTwins_of_noMethods (hfs : NoMethods fs)
    (h : Forall₂ (FrameTwins l notes visits sheet) fs gs) : gs = fs := by
  induction h with
  | nil => rfl
  | @cons f g fs gs hfirst _ ih =>
    have hf := hfs f (by simp)
    rcases hfirst with ⟨-, rfl⟩ | ⟨name, mark, mark', depth, rfl, -, -⟩
    · rw [ih fun f' hf' => hfs f' (by simp [hf'])]
    · exact absurd rfl hf

lemma forall₂_append_of_noMethods {fs' gs' : List Frame} (hfs : NoMethods fs)
    (h : Forall₂ (FrameTwins l notes visits sheet) fs' gs') :
    Forall₂ (FrameTwins l notes visits sheet) (fs ++ fs') (fs ++ gs') := by
  induction fs with
  | nil => exact h
  | cons f fs ih => exact .cons (.refl (hfs f (by simp))) (ih fun g hg => hfs g (by simp [hg]))

lemma keepsComments_eq (h : Forall₂ (FrameTwins l notes visits sheet) fs gs) :
    Walk.keepsComments gs.head? = Walk.keepsComments fs.head? := by
  cases h with
  | nil => rfl
  | cons hframe _ =>
    rcases hframe with ⟨-, rfl⟩ | ⟨name, mark, mark', depth, rfl, rfl, -⟩ <;> rfl

end Frames

namespace Twins

variable {l : Lookup} {r : Option Recognizer} {asked : List (List Action)} {visits : List Visit}
  {fs gs : List Frame} {a b : Walk}

variable (h : Twins l r asked visits fs gs a b)
include h

lemma context_eq : b.context = a.context := by
  have hcontext : b.bare.context = a.bare.context := by rw [h.bare]
  exact hcontext

lemma depth_eq : b.depth = a.depth := by
  have hdepth : b.bare.depth = a.bare.depth := by rw [h.bare]
  exact hdepth

lemma write {x a' b' : Walk} (ha : a' = x.on (a.place.write calls)) (hb : b' = x.on (b.place.write calls))
    (hcalls : ∀ c ∈ calls, ∀ p lines, c ≠ .insert p lines) (hx : NoMethods x.frames) :
    Twins l r asked visits (x.frames ++ fs) (x.frames ++ gs) a' b' := by
  subst ha hb
  have hbody : a.sheet.body <+: (a.sheet.performAll calls).body := a.sheet.body_prefix_performAll hcalls
  refine ⟨rfl, h.noted.performAll hcalls, h.asks, h.whole, h.breaks, h.increasing, ?_, ?_⟩
  · exact fun v hv => (h.headers v hv).mono hbody
  · exact forall₂_append_of_noMethods hx (h.frames.imp fun _ _ hframe => hframe.mono hbody)

/-- **A method is left.**  No other one is open, and the recognizer makes a note or none. -/
lemma finish (hfs : NoMethods fs) {name : Text}
    (hmark : MarkTwins l (notesOn r asked visits) visits a.sheet name mark mark') :
    Twins l r asked (visits ++ [⟨name, mark, a.context.actions⟩]) fs gs
      (a.finishMethod none name mark) (b.finishMethod r name mark') := by
  have hplain : a.finishMethod none name mark = { a with context := a.context.leaveMethod.2 } := rfl
  have habove : ∀ note ∈ notesOn r asked visits, note.1 < mark := by
    intro note hnote
    obtain ⟨v, hv, hposition, -⟩ := mem_notesOn hnote
    rw [hposition]
    exact hmark.below v hv
  have hincreasing : ((visits ++ [(⟨name, mark, a.context.actions⟩ : Visit)]).map
      Visit.mark).Pairwise (· < ·) := by
    rw [map_append, pairwise_append]
    refine ⟨h.increasing, pairwise_singleton _ _, ?_⟩
    intro m hm m' hm'
    obtain ⟨v, hv, rfl⟩ := mem_map.1 hm
    rw [mem_singleton.1 hm']
    exact hmark.below v hv
  have hheaders : ∀ v ∈ visits ++ [(⟨name, mark, a.context.actions⟩ : Visit)],
      IsHeader l a.sheet v.name v.mark := by
    intro v hv
    rcases mem_append.1 hv with hv | hv
    · exact h.headers v hv
    · rw [mem_singleton.1 hv]
      exact hmark.header
  have hframes : ∀ notes, Forall₂ (FrameTwins l notes
      (visits ++ [(⟨name, mark, a.context.actions⟩ : Visit)]) a.sheet) fs gs := by
    intro notes
    rw [frameTwins_of_noMethods hfs h.frames, ← append_nil fs]
    exact forall₂_append_of_noMethods hfs .nil
  have hbare : { b.bare with context := b.context.leaveMethod.2 } =
      { a.bare with context := a.context.leaveMethod.2 } := by rw [h.bare, h.context_eq]
  -- What the recognizer says decides whether there is a note.
  obtain ⟨patterns, after, hconsult⟩ : ∃ patterns after,
      consult r (askedAfter r asked visits) a.context.actions = (patterns, after) := ⟨_, _, rfl⟩
  have hconsult' : consult r b.asked b.context.actions = (patterns, after) := by
    rw [h.asks, h.context_eq, hconsult]
  have hasks : askedAfter r asked (visits ++ [⟨name, mark, a.context.actions⟩]) = after := by
    rw [askedAfter_concat, hconsult]
  have hbreaks : firstBreak r asked (visits ++ [⟨name, mark, a.context.actions⟩]) =
      b.broken.or (breakOn r (askedAfter r asked visits) ⟨name, mark, a.context.actions⟩) := by
    rw [firstBreak_append, ← h.breaks, firstBreak, firstBreak, Option.or_none]
  have hnotes : notesOn r asked (visits ++ [⟨name, mark, a.context.actions⟩]) =
      notesOn r asked visits ++ noteOn r (askedAfter r asked visits) ⟨name, mark, _⟩ :=
    notesOn_concat visits _
  rw [breakOn, hconsult] at hbreaks
  rw [noteOn, best?, hconsult] at hnotes
  rw [hplain]
  rcases patterns with message | _ | ⟨best, others⟩
  · have hactions : b.context.actions = a.context.actions := by rw [h.context_eq]
    rw [finishMethod_broken hconsult', hactions]
    exact ⟨hbare, (hnotes.trans (append_nil _)) ▸ h.noted, hasks.symm, h.whole, hbreaks.symm,
      hincreasing, hheaders, hframes _⟩
  · rw [finishMethod_silent hconsult']
    exact ⟨hbare, (hnotes.trans (append_nil _)) ▸ h.noted, hasks.symm, h.whole,
      (hbreaks.trans (Option.or_none ..)).symm, hincreasing, hheaders, hframes _⟩
  · have hnoted := h.noted.insert hmark.header.lt habove (patternNote best)
    have hadded : notesOn r asked (visits ++ [⟨name, mark, a.context.actions⟩]) =
        notesOn r asked visits ++ [(mark, patternNote best)] := hnotes
    rw [← hmark.moved, ← hadded] at hnoted
    rw [finishMethod_noted hconsult']
    exact ⟨hbare, hnoted, hasks.symm, h.whole, (hbreaks.trans (Option.or_none ..)).symm,
      hincreasing, hheaders, hframes _⟩

lemma onSheet (hcalls : calls.all plain = true) :
    Twins l r asked visits fs gs (a.onSheet (·.performAll calls))
      (b.onSheet (·.performAll calls)) := by
  have hb : b.onSheet (·.performAll calls) = a.bare.on (b.place.write calls) := by
    rw [← h.bare]
    rfl
  exact h.write (x := a.bare) rfl hb (not_insert_of_plain hcalls) (by rintro _ ⟨⟩)

lemma leave (hc : c.kind ≠ .method) : Twins l r asked visits fs gs (a.leave none c) (b.leave r c) := by
  obtain ⟨calls, hcalls, hleave⟩ := exists_calls_of_leave hc
  rw [hleave, hleave]
  exact h.onSheet hcalls

lemma leaveMethod (hfs : NoMethods fs) {name : Text}
    (hmark : MarkTwins l (notesOn r asked visits) visits a.sheet name mark mark') :
    Twins l r asked (visits ++ [⟨name, mark, a.context.actions⟩]) fs gs
      ((a.onSheet (·.closeScope)).finishMethod none name mark)
      ((b.onSheet (·.closeScope)).finishMethod r name mark') := by
  have hcalls : ([.closeScope] : List Call).all plain = true := rfl
  have hbody := a.sheet.body_prefix_performAll (not_insert_of_plain hcalls)
  exact (h.onSheet hcalls).finish hfs (hmark.mono hbody)

/-- **The constructs that are closed are left** by both walks. -/
lemma unwindFrames (hstack : Stack (kindsOf fs)) :
    InStep l r asked (visits ++ unwindVisits a fs) (Walk.unwindFrames none a fs)
      (Walk.unwindFrames r b gs) := by
  have hforall := h.frames
  induction fs generalizing gs visits a b with
  | nil =>
    cases hforall
    rw [unwindVisits, append_nil]
    exact ⟨h.bare, h.noted, h.asks, h.whole, h.breaks, h.increasing, h.headers, .nil⟩
  | cons f fs ih =>
    cases hforall with
    | @cons _ g _ gs hframe hframes =>
      have hstack' : Stack (f.construct.kind :: kindsOf fs) := hstack
      have hrest : Twins l r asked visits fs gs a b :=
        ⟨h.bare, h.noted, h.asks, h.whole, h.breaks, h.increasing, h.headers, hframes⟩
      have hdeeper : b.depth < g.depth ↔ a.depth < f.depth := by
        rw [hframe.depth_eq, h.depth_eq]
      rw [unwindVisits, unwindFrames, unwindFrames]
      by_cases hdeep : a.depth < f.depth
      · rw [if_pos hdeep, if_pos hdeep, if_pos (hdeeper.2 hdeep), ← append_assoc]
        rcases hframe with ⟨hkind, rfl⟩ | ⟨name, mark, mark', depth, rfl, rfl, hmark⟩
        · rw [leaveVisits_of_ne hkind, append_nil]
          have hleft := hrest.leave hkind
          exact ih hleft hstack'.tail hleft.frames
        · have hleft := hrest.leaveMethod (noMethods_of_notMem hstack'.method_notMem) hmark
          exact ih hleft hstack'.tail hleft.frames
      · rw [if_neg hdeep, if_neg hdeep, if_neg (mt hdeeper.1 hdeep), append_nil]
        exact ⟨h.bare, h.noted, h.asks, h.whole, h.breaks, h.increasing, h.headers, .cons hframe hframes⟩

end Twins

/-! ## Statements -/

namespace InStep

variable {l : Lookup} {r : Option Recognizer} {asked : List (List Action)} {visits : List Visit}
  {a b : Walk}

variable (h : InStep l r asked visits a b) (s : Statement)
include h

lemma lockstep {f : Walk → Except Fault Walk}
    (hf : ∀ p, f (a.bare.on p) = (f a.bare).map (·.on (p.write calls)))
    (hcalls : ∀ c ∈ calls, ∀ p lines, c ≠ .insert p lines)
    (hframes : ∀ w, f a.bare = .ok w → NoMethods w.frames) :
    Lockstep (InStep l r asked visits) (f a) (f b) := by
  have ha := hf a.place
  have hb := hf b.place
  rw [← h.bare, bare_on_place, h.bare] at hb
  cases hbare : f a.bare with
  | error fault =>
    rw [hbare] at ha hb
    exact .inl ⟨fault, ha, hb⟩
  | ok w =>
    rw [hbare] at ha hb
    exact .inr ⟨_, _, ha, hb, h.write rfl rfl hcalls (hframes w hbare)⟩

lemma apply {f : Walk → Walk} (hf : ∀ p, f (a.bare.on p) = (f a.bare).on (p.write calls))
    (hcalls : calls.all plain = true) (hframes : NoMethods (f a.bare).frames) :
    InStep l r asked visits (f a) (f b) := by
  have hlockstep : Lockstep (InStep l r asked visits) (.ok (f a)) (.ok (f b)) := by
    refine h.lockstep (f := fun w => .ok (f w)) (fun p => congrArg Except.ok (hf p))
      (not_insert_of_plain hcalls) ?_
    rintro _ ⟨⟩
    exact hframes
  rcases hlockstep with ⟨fault, hfault, -⟩ | ⟨_, _, ⟨⟩, ⟨⟩, hstep⟩
  · cases hfault
  · exact hstep

lemma convert (line : Nat) (text : Text) :
    Lockstep (InStep l r asked visits) (a.convert line text) (b.convert line text) := by
  refine h.lockstep (f := (·.convert line text)) (a.bare.convert_on · line text)
    (not_insert_of_plain (plain_convertCalls line text a.context)) ?_
  intro w hw
  rw [((Stays.refl a.bare).convert hw).frames]
  rintro _ ⟨⟩

lemma skip (reason : Text) (opened : Bool) :
    InStep l r asked visits (a.skip s reason opened) (b.skip s reason opened) := by
  refine h.apply (f := (·.skip s reason opened)) (a.bare.skip_on · s reason opened) rfl ?_
  cases opened with
  | false => rintro _ ⟨⟩
  | true =>
    intro f hf
    rw [mem_singleton.1 hf]
    rintro ⟨⟩

/-- **The header of a method is written.**  The two marks taken before it point at it. -/
lemma startMethod (info : ClassInfo) (style : Style) (sig : Signature) (annotations : List Text) :
    let started := (a.onSheet (·.blank)).startMethod l info style sig annotations
    let started' := (b.onSheet (·.blank)).startMethod l info style sig annotations
    InStep l r asked visits started started' ∧ started.frames = a.frames ∧
      MarkTwins l (notesOn r asked visits) visits started.sheet sig.name a.sheet.blank.mark
        b.sheet.blank.mark := by
  intro started started'
  have hblank : InStep l r asked visits (a.onSheet (·.blank)) (b.onSheet (·.blank)) :=
    Twins.onSheet h (show ([.blank] : List Call).all plain = true from rfl)
  obtain ⟨hframes, -, -, -⟩ := (a.onSheet (·.blank)).startMethod_spec l info style sig annotations
  have hstarted : InStep l r asked visits started started' := by
    refine hblank.apply (f := (·.startMethod l info style sig annotations))
      ((a.onSheet (·.blank)).bare.startMethod_on · l info style sig annotations)
      (plain_startCalls ..) ?_
    rw [((a.onSheet (·.blank)).bare.startMethod_spec l info style sig annotations).1]
    rintro _ ⟨⟩
  -- The header is the line that is written first.
  obtain ⟨depth, lines, hbody⟩ : ∃ depth lines, started.sheet.body =
      a.sheet.blank.body ++ ⟨depth, (methodHeader l style sig (stepAnnotation? annotations)
        a.context).1.line⟩ :: lines := by
    have hplain := plain_startCalls l info style sig annotations a.context
    rw [startCalls, all_cons, Bool.and_eq_true] at hplain
    obtain ⟨lines, hlines⟩ := Sheet.body_prefix_performAll (a.sheet.blank.openScope
      (methodHeader l style sig (stepAnnotation? annotations) a.context).1.line
      (methodHeader l style sig (stepAnnotation? annotations) a.context).1.closer)
      (not_insert_of_plain hplain.2)
    have hsheet := (a.onSheet (·.blank)).sheet_startMethod l info style sig annotations
    refine ⟨a.sheet.blank.depth, lines, ?_⟩
    rw [append_cons]
    exact (congrArg Sheet.body hsheet).trans hlines.symm
  refine ⟨hstarted, hframes, ⟨?_, ?_, ?_⟩⟩
  · refine ⟨style, sig, stepAnnotation? annotations, a.context, rfl, ?_⟩
    rw [Sheet.bodyTexts, hbody, Sheet.mark]
    simp
  · intro v hv
    exact (hblank.headers v hv).lt
  · rw [hbody, take_left']
    · exact congrArg length hblank.noted.body
    · rfl

lemma leaveMethod (hframes : NoMethods a.frames) {name : Text}
    (hmark : MarkTwins l (notesOn r asked visits) visits a.sheet name mark mark') :
    InStep l r asked (visits ++ [⟨name, mark, a.context.actions⟩])
      ((a.onSheet (·.closeScope)).finishMethod none name mark)
      ((b.onSheet (·.closeScope)).finishMethod r name mark') := by
  rw [InStep, frames_finishMethod, frames_finishMethod]
  exact Twins.leaveMethod h hframes hmark

/-- A method or constructor in a class. -/
lemma method (hframes : NoMethods a.frames) (s : Statement) (info : ClassInfo) (style : Style)
    (sig : Signature) (annotations : List Text) (opened : Bool) :
    Lockstep (InStep l r asked (visits ++ methodVisits l a s info style sig annotations opened))
      (a.method ⟨l, none⟩ s info style sig annotations opened)
      (b.method ⟨l, r⟩ s info style sig annotations opened) := by
  obtain ⟨hstarted, hsame, hmark⟩ := h.startMethod info style sig annotations
  rw [methodVisits, Walk.method, Walk.method]
  by_cases hconstructor : sig.isConstructor = true
  · rw [if_pos (.inl hconstructor), if_pos hconstructor, if_pos hconstructor, append_nil]
    exact .ok (h.skip s _ opened)
  by_cases habstract : trim sig.ending = ";".toList
  · rw [if_pos (.inr (.inl habstract)), if_neg hconstructor, if_neg hconstructor, if_pos habstract,
      if_pos habstract, append_nil]
    exact .ok (h.skip s _ false)
  rw [if_neg hconstructor, if_neg hconstructor, if_neg habstract, if_neg habstract]
  cases opened with
  | true =>
    rw [if_pos (.inr (.inr rfl)), append_nil]
    refine .ok ⟨hstarted.bare, hstarted.noted, hstarted.asks, hstarted.whole, hstarted.breaks,
      hstarted.increasing, hstarted.headers,
      .cons (.inr ⟨_, _, _, _, rfl, by rw [hstarted.depth_eq]; rfl, hmark⟩) hstarted.frames⟩
  | false =>
    rw [if_neg (by tauto), if_neg Bool.false_ne_true, if_neg Bool.false_ne_true]
    by_cases hbody : (inlineBody (trim sig.ending)).isEmpty = true
    · rw [inlineVisits, if_pos hbody, if_pos hbody, if_pos hbody]
      exact .ok (hstarted.leaveMethod (hsame ▸ hframes) hmark)
    · rw [inlineVisits, if_neg hbody, if_neg hbody, if_neg hbody]
      refine (hstarted.convert s.line _).bind ?_
      intro w w' hw hconverted
      have hstays := (Stays.refl _).convert hw
      have hlines : _ <+: w.sheet.body := sheet_convert hw ▸
        Sheet.body_prefix_performAll _ (not_insert_of_plain (plain_convertCalls ..))
      rw [hw]
      exact .ok (hconverted.leaveMethod (hstays.frames ▸ hsame ▸ hframes) (hmark.mono hlines))

lemma member (hframes : NoMethods a.frames) (s : Statement) (info : ClassInfo) (style : Style)
    (bodyDepth : Nat) :
    Lockstep (InStep l r asked (visits ++ memberVisits l a s info style bodyDepth))
      (a.member ⟨l, none⟩ s info style bodyDepth) (b.member ⟨l, r⟩ s info style bodyDepth) := by
  have hpending : b.pending = a.pending := by
    have hbare : b.bare.pending = a.bare.pending := by rw [h.bare]
    exact hbare
  have hcleared : ∀ pending, InStep l r asked visits { a with pending } { b with pending } := by
    intro pending
    have hnone : ([] : List Call).all plain = true := rfl
    exact h.apply (f := fun w => { w with pending }) (fun _ => rfl) hnone (by rintro _ ⟨⟩)
  have hopened : decide (bodyDepth < b.depth) = decide (bodyDepth < a.depth) := by rw [h.depth_eq]
  have hvisits : memberVisits l a s info style bodyDepth = memberCase s info style [] (fun _ => [])
      (methodVisits l { a with pending := [] } s info style · (a.pending ++ (splitAnnotations s.text).1)
        (bodyDepth < a.depth)) fun _ => [] := by
    simp only [memberVisits, memberCase, ite_or]
    cases signature? (some info.name) (splitAnnotations s.text).2 <;> cases field? _ <;> rfl
  rw [hvisits, member_eq, member_eq]
  dsimp only
  rw [hpending, hopened]
  cases memberPlace s info style with
  | waiting hcase =>
    rw [hcase, hcase, hcase, append_nil]
    exact .ok (hcleared _)
  | skipped reason _ hcase =>
    rw [hcase, hcase, hcase, append_nil]
    exact .ok ((hcleared []).skip ..)
  | method sig _ _ hcase =>
    rw [hcase, hcase, hcase]
    exact (hcleared []).method hframes ..
  | field f _ hcase =>
    rw [hcase, hcase, hcase, append_nil]
    refine .ok ((hcleared []).apply (f := (·.field l s style f _)) (field_on _ · l s style f _)
      (plain_fieldCalls ..) ?_)
    rw [(Stays.field _ l s style f _).frames]
    rintro _ ⟨⟩

lemma bodyStatement (inBlock : Bool) :
    Lockstep (InStep l r asked visits) (a.bodyStatement s inBlock) (b.bodyStatement s inBlock) := by
  refine h.lockstep (f := (·.bodyStatement s inBlock)) (a.bare.bodyStatement_on · s inBlock) ?_ ?_
  · rcases plain_bodyCalls s inBlock a.context with hplain | ⟨-, line, hline⟩
    · exact not_insert_of_plain hplain
    · intro c hc p lines
      have hchain : c ∈ bodyCalls s inBlock a.context := hc
      rw [hline] at hchain
      rw [mem_singleton.1 hchain]
      rintro ⟨⟩
  · intro w hw
    have hentered : ∀ c : Construct, c.kind ≠ .method → NoMethods [⟨c, a.depth⟩] := by
      intro c hc f hf
      rwa [mem_singleton.1 hf]
    rcases bodyStatement_cases hw with ⟨rest, rfl⟩ | rfl | rfl | ⟨text, -, htext⟩
    · rcases a.bare.closing_cases s inBlock rest with hc | ⟨header, context, -, hc⟩ | hc <;> rw [hc] <;>
        rintro _ ⟨⟩
    · rcases a.bare.opening_cases s with ⟨header, context, -, ho⟩ | ho <;> rw [ho]
      · exact hentered .block (by rintro ⟨⟩)
      · exact hentered .commented (by rintro ⟨⟩)
    · rintro _ ⟨⟩
    · rw [((Stays.refl a.bare).convert htext).frames]
      rintro _ ⟨⟩

lemma todo : InStep l r asked visits (a.todo s) (b.todo s) :=
  h.apply (f := (·.todo s)) (fun _ => rfl) (show (todoCalls s).all plain = true from rfl) (by rintro _ ⟨⟩)

lemma topLevel (before : Nat) :
    InStep l r asked visits (a.topLevel l s before) (b.topLevel l s before) := by
  refine h.apply (f := (·.topLevel l s before)) (a.bare.topLevel_on · l s before)
    (plain_topLevelCalls ..) (noMethods_topLevel rfl l s before)

lemma count : InStep l r asked visits (a.count s) (b.count s) := by
  refine h.apply (f := (·.count s)) (a.bare.count_on · s) (plain_countCalls ..) ?_
  rw [frames_count]
  rintro _ ⟨⟩

lemma checked : Compared l r asked visits a.checked b.checked := by
  have ha : a.checked = .ok a := checked_eq_ok_iff.2 ⟨h.whole, rfl⟩
  rw [ha]
  cases hbroken : b.broken with
  | none =>
    rw [checked_eq_ok_iff.2 ⟨hbroken, rfl⟩]
    exact .inr ⟨h.breaks.symm.trans hbroken, .ok h⟩
  | some fault =>
    refine .inl ⟨fault, h.breaks.symm.trans hbroken, ?_⟩
    rw [Walk.checked, hbroken]
    rfl

/-- **A statement**, before the constructs that it closed are left. -/
lemma within (hstack : Stack (kindsOf a.frames)) (before : Nat) (s : Statement) :
    Lockstep (InStep l r asked (visits ++ withinVisits l a before s a.frames.head?))
      (a.within ⟨l, none⟩ before s a.frames.head?) (b.within ⟨l, r⟩ before s b.frames.head?) := by
  have hbody : ∀ inBlock, Lockstep (InStep l r asked (visits ++ [])) (a.bodyStatement s inBlock)
      (b.bodyStatement s inBlock) := by
    intro inBlock
    rw [append_nil]
    exact h.bodyStatement s inBlock
  have hstays : ∀ x y, InStep l r asked visits x y →
      Lockstep (InStep l r asked (visits ++ [])) (.ok x) (.ok y) := by
    intro x y hxy
    rw [append_nil]
    exact .ok hxy
  have hclass : ∀ info style depth, a.frames.head? = some ⟨.classBody info style, depth⟩ →
      NoMethods a.frames := by
    intro info style depth hhead
    refine noMethods_of_notMem (hstack.method_notMem_of_class ?_)
    rw [kindsOf, head?_map, hhead]
    rfl
  have hframes := h.frames
  generalize hfs : a.frames = fs at hframes ⊢
  generalize b.frames = gs at hframes ⊢
  unfold Walk.within
  cases hframes with
  | nil =>
    split_ifs
    · exact hstays a b h
    · exact hstays _ _ (h.topLevel s before)
  | @cons f g fs gs hframe hrest =>
    rw [head?_cons, head?_cons]
    rcases hframe with ⟨hkind, rfl⟩ | ⟨name, mark, mark', depth, rfl, rfl, -⟩
    · obtain ⟨construct, depth⟩ := g
      cases construct with
      | method name mark => exact absurd rfl hkind
      | skipped =>
        split_ifs
        · exact hstays a b h
        · exact hstays a b h
      | commented =>
        split_ifs
        · exact hstays a b h
        · exact hstays _ _ (h.todo s)
      | block =>
        split_ifs
        · exact hstays a b h
        · exact hbody true
      | classBody info style =>
        rw [withinVisits]
        by_cases hclosers : Walk.isClosersOnly s.text = true
        · rw [if_pos (.inl hclosers), if_pos ⟨hclosers, rfl⟩, if_pos ⟨hclosers, rfl⟩]
          exact hstays a b h
        by_cases hdepth : before = depth
        · rw [if_neg (by tauto), if_neg (by tauto), if_neg (by tauto)]
          dsimp only
          rw [if_pos hdepth, if_pos hdepth]
          exact h.member (hclass info style depth (by rw [hfs]; rfl)) s info style depth
        · rw [if_pos (.inr hdepth), if_neg (by tauto), if_neg (by tauto)]
          dsimp only
          rw [if_neg hdepth, if_neg hdepth]
          exact hstays a b h
    · by_cases hclosers : isClosersOnly s.text = true
      · rw [if_pos ⟨hclosers, rfl⟩, if_pos ⟨hclosers, rfl⟩]
        exact hstays a b h
      · rw [if_neg (by tauto), if_neg (by tauto)]
        exact hbody false

/-- **A statement that is no comment**: what it does fails in both walks, or the constructs that it
closed are left. -/
lemma code (hnests : a.Nests) {s : Statement} (hcode : s.isComment = false) :
    (∃ fault, (a.count s).within ⟨l, none⟩ a.depth s a.frames.head? = .error fault ∧
      (b.count s).within ⟨l, r⟩ b.depth s b.frames.head? = .error fault) ∨
    ∃ w w', (a.count s).within ⟨l, none⟩ a.depth s a.frames.head? = .ok w ∧
      (b.count s).within ⟨l, r⟩ b.depth s b.frames.head? = .ok w' ∧
      InStep l r asked (visits ++ stepVisits l a s) (w.unwind none) (w'.unwind r) := by
  have hstack : Stack (kindsOf (a.count s).frames) := by
    rw [frames_count]
    exact hnests.stack
  have hwithin := (h.count s).within hstack a.depth s
  rw [frames_count, frames_count] at hwithin
  rw [stepVisits, if_neg (by simp [hcode]), h.depth_eq]
  refine hwithin.imp id ?_
  rintro ⟨w, w', hw, hw', hinside⟩
  obtain ⟨-, -, hleaving⟩ := hnests.within hw
  refine ⟨w, w', hw, hw', ?_⟩
  rw [hw, ← append_assoc]
  exact Twins.unwindFrames hinside hleaving.stack

/-- **One statement** of the two walks. -/
lemma step (hwhole : b.broken = none) (hnests : a.Nests) (s : Statement) :
    Compared l r asked (visits ++ stepVisits l a s) (a.step ⟨l, none⟩ s) (b.step ⟨l, r⟩ s) := by
  have hlisted := h.breaks.symm.trans hwhole
  cases hcomment : s.isComment with
  | true =>
    have hkeeps : keepsComments b.frames.head? = keepsComments a.frames.head? :=
      keepsComments_eq h.frames
    rw [stepVisits, Walk.step, Walk.step, if_pos hcomment, append_nil, hkeeps]
    split_ifs
    · have hplain : ([.emit (s.rawLines.map commentLine)] : List Call).all plain = true := rfl
      exact .inr ⟨hlisted, .ok (Twins.onSheet h hplain)⟩
    · exact .inr ⟨hlisted, .ok h⟩
  | false =>
    have hcode := h.code hnests hcomment
    rw [Walk.step, Walk.step, if_neg (by simp [hcomment]), if_neg (by simp [hcomment])]
    rcases hcode with ⟨fault, hw, hw'⟩ | ⟨w, w', hw, hw', hleft⟩
    · rw [stepVisits, if_neg (by simp [hcomment]), hw, hw', append_nil]
      exact .inr ⟨hlisted, .inl ⟨fault, rfl, rfl⟩⟩
    · rw [hw, hw']
      exact hleft.checked

/-- **The run**: the two walks over some statements go in step until a reply breaks the second. -/
lemma foldlM (hwhole : b.broken = none) (hnests : a.Nests) (statements : List Statement) :
    Compared l r asked (visits ++ walkVisits l a statements)
      (statements.foldlM (Walk.step ⟨l, none⟩) a) (statements.foldlM (Walk.step ⟨l, r⟩) b) := by
  induction statements generalizing visits a b with
  | nil =>
    rw [walkVisits, append_nil]
    exact .inr ⟨h.breaks.symm.trans hwhole, .ok h⟩
  | cons s rest ih =>
    rw [foldlM_cons, foldlM_cons, walkVisits, ← append_assoc]
    rcases h.step hwhole hnests s with ⟨fault, hbreak, hw'⟩ | ⟨hlisted, hw⟩
    · rw [hw']
      refine .inl ⟨fault, ?_, rfl⟩
      rw [firstBreak_append, hbreak, Option.some_or]
    rcases hw with ⟨fault, hw, hw'⟩ | ⟨w, w', hw, hw', hstep⟩ <;> rw [hw, hw']
    · rw [append_nil]
      exact .inr ⟨hlisted, .inl ⟨fault, rfl, rfl⟩⟩
    · exact ih hstep (hstep.breaks.trans hlisted) (hnests.step hw)

end InStep

/-! ## Files -/

lemma Task.run_of_walk {t : Task} (h : t.walk = .ok w) :
    t.run = .ok { code := (finishedSheet w).render, diagnostics := w.context.diagnostics,
                  classes := t.classes, patterns := w.patterns
                  droppedClosers := w.sheet.droppedClosers, asked := w.asked } := by
  rw [run, h]
  rfl

/-- A reply that breaks a conversion off: the recognizer is asked about a method that is left and
its reply cannot be listed, while the replies about the methods before could be. -/
structure Break (t : Task) (fault : Fault) where
  recognizer : Recognizer
  earlier : List Visit
  visit : Visit
  later : List Visit
  message : Text
  given : t.recognizer = some recognizer
  visits : t.visits = earlier ++ visit :: later
  listed : firstBreak t.recognizer t.asked earlier = none
  acts : visit.actions ≠ []
  reply : recognizer.reply (askedAfter t.recognizer t.asked earlier) visit.actions =
    .unlistable message
  reason : fault = .unlistable visit.actions message

lemma nonempty_break_iff {t : Task} :
    Nonempty (Break t fault) ↔ firstBreak t.recognizer t.asked t.visits = some fault := by
  rw [firstBreak_eq_some_iff]
  constructor
  · rintro ⟨b⟩
    have hconsult := consult_eq_error_iff.2 ⟨b.recognizer, b.given, b.acts, b.reply⟩
    refine ⟨b.earlier, b.visit, b.later, b.visits, b.listed, ?_⟩
    rw [breakOn, hconsult]
    exact congrArg some b.reason.symm
  · rintro ⟨earlier, v, later, hvisits, hlisted, hv⟩
    rw [breakOn] at hv
    cases hconsult : (consult t.recognizer (askedAfter t.recognizer t.asked earlier) v.actions).1 with
    | ok patterns =>
      rw [hconsult] at hv
      cases hv
    | error message =>
      rw [hconsult] at hv
      obtain ⟨r, hr, hacts, hreply⟩ := consult_eq_error_iff.1 hconsult
      exact ⟨⟨r, earlier, v, later, message, hr, hvisits, hlisted, hacts, hreply,
        (Option.some.inj hv).symm⟩⟩

lemma walkVisits_append {a : Walk} {before : List Statement}
    (h : before.foldlM (Walk.step ⟨l, none⟩) a = .ok w) (after : List Statement) :
    walkVisits l a (before ++ after) = walkVisits l a before ++ walkVisits l w after := by
  induction before generalizing a with
  | nil =>
    cases h
    rfl
  | cons s before ih =>
    obtain ⟨next, hnext, h⟩ := foldlM_cons_eq_ok.1 h
    rw [cons_append, walkVisits, walkVisits, hnext]
    dsimp only
    rw [ih h, append_assoc]

lemma InStep.start :
    InStep t.surroundings.lookup t.recognizer asked [] { t with recognizer := none }.start
      { t with asked }.start := ⟨rfl, .refl _, rfl, rfl, rfl, .nil, by simp, .nil⟩

/-- The conversion with the recognizer and the one without it. -/
lemma Task.walk_compared :
    Compared t.surroundings.lookup t.recognizer asked t.visits { t with recognizer := none }.walk
      { t with asked }.walk := by
  exact (InStep.start t asked).foldlM rfl (Task.start_nests _) t.document.statements

/-- **A recognizer does not interfere**, unless it gives a reply that cannot be listed: then the
conversion fails, whatever became of it without a recognizer.  Else, whatever the recognizer answers
or fails with, call by call, a file is converted as it is without one, or fails as it does without
one.  The diagnostics, the classes, the imports and the braces that were dropped are the same, and
the body has some notes more: at most one on each method, right above its header and as deep.  The
recognizer is asked about the methods in which an action was recorded, and a method in which none
was gets no note. -/
theorem recognizer_only_adds_notes (t : Task) :
    let plain : Task := { t with recognizer := none }
    let notes := notesOn t.recognizer t.asked t.visits
    (∃ fault, Nonempty (Break t fault) ∧ t.run = .error fault) ∨
    (∀ fault, IsEmpty (Break t fault)) ∧
    ((∃ fault, plain.run = .error fault ∧ t.run = .error fault) ∨
    ∃ w w' o o', plain.walk = .ok w ∧ t.walk = .ok w' ∧ plain.run = .ok o ∧ t.run = .ok o' ∧
      o'.diagnostics = o.diagnostics ∧ o'.classes = o.classes ∧
      o'.droppedClosers = o.droppedClosers ∧
      (Task.finishedSheet w').allImports = (Task.finishedSheet w).allImports ∧
      w'.sheet.body = weave notes w.sheet.body ∧
      (notes.map Prod.fst).Sublist (t.visits.map Visit.mark) ∧
      (∀ note ∈ notes, ∃ v ∈ t.visits,
        note.1 = v.mark ∧ v.actions ≠ [] ∧ ∃ best, note.2 = Walk.patternNote best) ∧
      (t.visits.map Visit.mark).Pairwise (· < ·) ∧
      (∀ v ∈ t.visits, IsHeader t.surroundings.lookup w.sheet v.name v.mark) ∧
      o'.asked = t.asked ++
        if t.recognizer.isSome then (t.visits.map Visit.actions).filter (· ≠ []) else []) := by
  intro plain notes
  rcases t.walk_compared t.asked with ⟨fault, hbreak, hwalk⟩ | ⟨hlisted, hrun⟩
  · refine .inl ⟨fault, nonempty_break_iff.2 hbreak, ?_⟩
    rw [Task.run, hwalk]
    rfl
  have hnone : ∀ fault, IsEmpty (Break t fault) := by
    intro fault
    rw [← not_nonempty_iff, nonempty_break_iff, hlisted]
    rintro ⟨⟩
  refine .inr ⟨hnone, ?_⟩
  rcases hrun with ⟨fault, hplain, hnoted⟩ | ⟨w, w', hw, hw', h⟩
  · refine .inl ⟨fault, ?_, ?_⟩
    · rw [Task.run, hplain]
      rfl
    · rw [Task.run, hnoted]
      rfl
  · have hfinished := h.noted.addImports w.context.imports
    have himports : (Task.finishedSheet w').allImports = (Task.finishedSheet w).allImports := by
      rw [Sheet.allImports, Sheet.allImports, Task.finishedSheet, Task.finishedSheet, h.context_eq,
        hfinished.baseImports, hfinished.imports]
    have hdiagnostics : w'.context.diagnostics = w.context.diagnostics := by rw [h.context_eq]
    have hasked : w'.asked = _ := h.asks.trans (askedAfter_eq t.recognizer t.asked t.visits)
    refine .inr ⟨w, w', _, _, hw, hw', Task.run_of_walk hw, Task.run_of_walk hw', hdiagnostics,
      rfl, h.noted.droppedClosers, himports, h.noted.body, marks_notesOn _, ?_,
      h.increasing, h.headers, hasked⟩
    exact fun note hnote => mem_notesOn hnote

/-- A number in the place of a list ends a conversion that succeeds without the recognizer. -/
theorem conversion_broken_by_reply :
    let plain : Task :=
      { document := ⟨["class A \x7b", "void m() \x7b x.click(); \x7d", "WebElement x;", "\x7d"]⟩ }
    let t : Task :=
      { plain with recognizer := some ⟨fun _ _ => .unlistable "'int' object is not iterable"⟩ }
    plain.run.toOption.isSome = true ∧ t.run =
      .error (.unlistable [{ action := "click", target := some "x".toList }]
        "'int' object is not iterable") := by
  decide +kernel

/-- Of two methods the first does nothing to a page; the second stands on one line. -/
example :
    let t : Task :=
      { document := ⟨["class A \x7b", "void m() \x7b", "\x7d", "void n() \x7b x.click(); \x7d",
          "WebElement x;", "\x7d"]⟩
        recognizer := some ⟨fun _ _ => .found [some { name := "Login" }]⟩ }
    t.visits.map (·.mark) = [7, 10] ∧ notesOn t.recognizer t.asked t.visits =
      [(10, "// Pattern: Login (0.00)".toList)] := by
  decide +kernel

end Restage.Conversion
