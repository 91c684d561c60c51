import Restage.Proofs.Conversion.Cases

/-!
# How constructs and scopes nest

A walk keeps two stacks.  The frames follow the braces of the source, the scopes of the sheet follow
the output, and the functions of the walk move both by hand.  This module says how far they stay in
step, on every document, balanced or not.

The frames only ever stand in one of six orders (`WellNested`), each body lies deeper than the one
around it and none deeper than the source is, and the conversion is in a method exactly when the
frame of one is open.  The scopes are as many as the frames that have one, or one less: a closing
brace too many closes a scope at once, and if the class around it was opened at depth zero its frame
stays.  `Walk.Nests` is that invariant.

Between counting the braces of a statement and leaving the frames it closed the invariant is broken,
the frames lie deeper than the source, and after a brace too many any number of scopes may be
missing.  `Leaving` is what holds in between; `Leaving.unwindFrames` restores the invariant.  Since
two frames with scopes lie under the frame of a block, a scope is always open when a block is
continued, and so `Sheet.chain` is never called without one.
-/

namespace Restage.Conversion

open Text Java TypeScript List Option Sheet

variable {w : Walk} {ks : List Kind} (l : Lookup)

/-! ## Orders of frames -/

/-- The kinds of constructs. -/
inductive Kind where
  | skipped
  | classBody
  | method
  | block
  | commented
  deriving DecidableEq, Repr

def Construct.kind : Construct → Kind
  | .skipped => .skipped
  | .classBody _ _ => .classBody
  | .method _ _ => .method
  | .block => .block
  | .commented => .commented

/-- The kinds of some frames, in their order. -/
def kindsOf (frames : List Frame) : List Kind := frames.map (·.construct.kind)

/-- No method is among the frames. -/
def NoMethods (frames : List Frame) : Prop := ∀ f ∈ frames, f.construct.kind ≠ .method

lemma noMethods_of_notMem {frames : List Frame} (h : Kind.method ∉ kindsOf frames) :
    NoMethods frames := fun f hf hkind => h (List.mem_map.2 ⟨f, hf, hkind⟩)

/-- The orders in which constructs are open, the outermost first. -/
inductive WellNested : List Kind → Prop
  | outside : WellNested []
  | skipped : WellNested [.skipped]
  | classBody : WellNested [.classBody]
  | skippedMember : WellNested [.classBody, .skipped]
  | body (n : Nat) : WellNested ([.classBody, .method] ++ List.replicate n .block)
  | commented (n : Nat) :
      WellNested ([.classBody, .method] ++ List.replicate n .block ++ [.commented])

/-- The frames of a method that is being converted, the innermost first. -/
inductive Body : List Kind → Prop
  | method : Body [.method, .classBody]
  | block {ks : List Kind} : Body ks → Body (.block :: ks)

/-- The orders of `WellNested` from the innermost frame out, as frames are entered and left. -/
inductive Stack : List Kind → Prop
  | outside : Stack []
  | skipped : Stack [.skipped]
  | classBody : Stack [.classBody]
  | skippedMember : Stack [.skipped, .classBody]
  | body {ks : List Kind} : Body ks → Stack ks
  | commented {ks : List Kind} : Body ks → Stack (.commented :: ks)

lemma Body.reverse_eq (h : Body ks) :
    ∃ n, ks.reverse = [.classBody, .method] ++ List.replicate n .block := by
  induction h with
  | method => exact ⟨0, rfl⟩
  | block _ ih =>
    obtain ⟨n, hn⟩ := ih
    refine ⟨n + 1, ?_⟩
    rw [reverse_cons, hn, append_assoc, ← replicate_succ']

lemma WellNested.stack (h : WellNested ks) : Stack ks.reverse := by
  have hbody : ∀ n, Body ([.classBody, .method] ++ replicate n .block : List Kind).reverse := by
    intro n
    induction n with
    | zero => exact .method
    | succ n ih =>
      rw [replicate_succ', ← append_assoc, reverse_append]
      exact .block ih
  cases h with
  | outside => exact .outside
  | skipped => exact .skipped
  | classBody => exact .classBody
  | skippedMember => exact .skippedMember
  | body n => exact .body (hbody n)
  | commented n =>
    rw [reverse_append]
    exact .commented (hbody n)

/-- What may stand directly in a construct, or outside of all. -/
def mayHold : Option Kind → Kind → Bool
  | none, .skipped | none, .classBody => true
  | some .classBody, .skipped | some .classBody, .method => true
  | some .method, .block | some .method, .commented => true
  | some .block, .block | some .block, .commented => true
  | _, _ => false

namespace Stack

variable {k : Kind} {ks : List Kind}

lemma wellNested (h : Stack ks) : WellNested ks.reverse := by
  cases h with
  | outside => exact .outside
  | skipped => exact .skipped
  | classBody => exact .classBody
  | skippedMember => exact .skippedMember
  | body hbody =>
    obtain ⟨n, hn⟩ := hbody.reverse_eq
    exact hn ▸ .body n
  | commented hbody =>
    obtain ⟨n, hn⟩ := hbody.reverse_eq
    rw [reverse_cons, hn]
    exact .commented n

lemma tail (h : Stack (k :: ks)) : Stack ks := by
  cases h with
  | skipped | classBody => exact .outside
  | skippedMember => exact .classBody
  | body hbody =>
    cases hbody with
    | method => exact .classBody
    | block hbody => exact .body hbody
  | commented hbody => exact .body hbody

lemma push (h : Stack ks) (hk : mayHold ks.head? k = true) : Stack (k :: ks) := by
  cases h with
  | outside => cases k <;> first | exact .skipped | exact .classBody | cases hk
  | classBody => cases k <;> first | exact .skippedMember | exact .body .method | cases hk
  | skipped | skippedMember | commented => cases hk
  | body hbody =>
    cases hbody with
    | method => cases k <;> first | exact .body (.block .method) | exact .commented .method | cases hk
    | block hbody =>
      cases k <;> first
        | exact .body (.block (.block hbody)) | exact .commented (.block hbody) | cases hk

lemma method_notMem (h : Stack (.method :: ks)) : Kind.method ∉ ks := by
  cases h with
  | body hbody => cases hbody; decide

lemma method_notMem_of_class (h : Stack ks) (hk : ks.head? = some .classBody) :
    Kind.method ∉ ks := by
  cases h with
  | classBody => decide
  | outside | skipped | skippedMember | commented => cases hk
  | body hbody => cases hbody <;> cases hk

lemma eq_of_singleton (h : Stack [k]) : k = .skipped ∨ k = .classBody := by
  cases h with
  | skipped => exact .inl rfl
  | classBody => exact .inr rfl
  | body hbody => cases hbody with | block hbody => cases hbody
  | commented hbody => cases hbody

lemma body_of_block (h : Stack (.block :: ks)) : Body ks := by
  cases h with
  | body hbody => cases hbody with | block hbody => exact hbody

end Stack

/-! ## The invariant -/

/-- How many of some frames have a scope on the sheet. -/
def scopeCount (frames : List Frame) : Nat := frames.countP (·.construct.hasScope)

@[simp] lemma scopeCount_cons (f : Frame) (frames : List Frame) :
    scopeCount (f :: frames) = scopeCount frames + if f.construct.hasScope then 1 else 0 :=
  countP_cons ..

/-- The outermost frame is that of a class with a scope whose body is at depth zero. -/
def ClassAtZero (frames : List Frame) : Prop :=
  ∃ f, frames.getLast? = some f ∧ f.construct.kind = .classBody ∧ f.construct.hasScope = true ∧
    f.depth = 0

namespace ClassAtZero

variable {f : Frame} {frames : List Frame}

lemma cons (h : ClassAtZero frames) (f : Frame) : ClassAtZero (f :: frames) := by
  obtain ⟨bottom, hbottom, h⟩ := h
  exact ⟨bottom, by rw [getLast?_cons, hbottom]; rfl, h⟩

lemma tail (h : ClassAtZero (f :: frames)) (hf : f.depth ≠ 0) : ClassAtZero frames := by
  obtain ⟨bottom, hbottom, h⟩ := h
  cases frames with
  | nil =>
    cases hbottom
    exact absurd h.2.2 hf
  | cons g frames => exact ⟨bottom, by rwa [getLast?_cons_cons] at hbottom, h⟩

lemma scopeCount_pos (h : ClassAtZero frames) : 0 < scopeCount frames := by
  obtain ⟨bottom, hbottom, -, hscope, -⟩ := h
  exact countP_pos_iff.2 ⟨bottom, mem_of_getLast? hbottom, hscope⟩

end ClassAtZero

/-- **The invariant of a walk.** -/
structure Walk.Nests (w : Walk) : Prop where
  /-- No body lies deeper than the source is. -/
  le_depth : ∀ f ∈ w.frames, f.depth ≤ w.depth
  /-- Each body lies deeper than the bodies around it. -/
  deeper : w.frames.Pairwise fun inner outer => outer.depth < inner.depth
  /-- The constructs stand in one of the six orders. -/
  nested : WellNested (kindsOf w.frames).reverse
  /-- The conversion is in a method exactly when one is open. -/
  inMethod : w.context.inMethod = true ↔ Kind.method ∈ kindsOf w.frames
  /-- The sheet has a scope for each frame that has one, or one less. -/
  scopes : w.sheet.depth = scopeCount w.frames ∨
    w.sheet.depth + 1 = scopeCount w.frames ∧ ClassAtZero w.frames

lemma Walk.Nests.stack (h : w.Nests) : Stack (kindsOf w.frames) := by
  have hstack := h.nested.stack
  rwa [reverse_reverse] at hstack

/-- What holds while frames are left: they may lie deeper than the source, and if the source is at
depth zero, any number of scopes may be missing. -/
structure Leaving (w : Walk) (frames : List Frame) : Prop where
  deeper : frames.Pairwise fun inner outer => outer.depth < inner.depth
  stack : Stack (kindsOf frames)
  inMethod : w.context.inMethod = true ↔ Kind.method ∈ kindsOf frames
  scopes : w.sheet.depth = scopeCount frames ∨
    (w.sheet.depth + 1 = scopeCount frames ∧ ClassAtZero frames) ∨
    (w.depth = 0 ∧ w.sheet.depth < scopeCount frames)

/-! ## Leaving frames -/

namespace Walk

variable (w : Walk) (recognizer : Option Recognizer)

lemma level_noteCalls (mark n : Nat) :
    (noteCalls recognizer w mark).foldl Sheet.levelAfter n = n := by
  rw [noteCalls]
  cases best? recognizer w.asked w.context.actions <;> rfl

lemma depth_finishMethod (name : Text) (mark : Nat) :
    (w.finishMethod recognizer name mark).depth = w.depth := by
  simp only [finishMethod]
  split <;> rfl

lemma frames_finishMethod (name : Text) (mark : Nat) :
    (w.finishMethod recognizer name mark).frames = w.frames := by
  simp only [finishMethod]
  split <;> rfl

lemma inMethod_finishMethod (name : Text) (mark : Nat) :
    (w.finishMethod recognizer name mark).context.inMethod = false := by
  rw [context_finishMethod]
  rfl

lemma depth_leave (c : Construct) : (w.leave recognizer c).depth = w.depth := by
  cases c with
  | method name mark => exact depth_finishMethod ..
  | classBody info style => cases style <;> rfl
  | skipped | block | commented => rfl

lemma inMethod_leave (c : Construct) :
    (w.leave recognizer c).context.inMethod =
      (decide (c.kind ≠ .method) && w.context.inMethod) := by
  cases c with
  | method name mark => exact inMethod_finishMethod ..
  | classBody info style => cases style <;> rfl
  | skipped | block | commented => rfl

lemma sheetDepth_leave (c : Construct) :
    (w.leave recognizer c).sheet.depth = w.sheet.depth - if c.hasScope then 1 else 0 := by
  rw [sheet_leave, depth_performAll]
  cases c with
  | method name mark => exact level_noteCalls ..
  | classBody info style => cases style <;> rfl
  | skipped | block | commented => rfl

end Walk

variable {frames : List Frame} {pushed : Option Construct} {c : Construct} {s : Statement}
  {info : ClassInfo} {style : Style} {annotations : List Text} {opened : Bool}

namespace Leaving

variable {w : Walk} {f : Frame} {outer : List Frame}

lemma leave (h : Leaving w (f :: outer)) (hdeep : w.depth < f.depth)
    (recognizer : Option Recognizer) : Leaving (w.leave recognizer f.construct) outer := by
  have hstack : Stack (f.construct.kind :: kindsOf outer) := h.stack
  refine ⟨h.deeper.tail, hstack.tail, ?_, ?_⟩
  · rw [Walk.inMethod_leave, Bool.and_eq_true, decide_eq_true_eq, h.inMethod]
    constructor
    · rintro ⟨hne, hmem⟩
      exact (mem_cons.1 hmem).resolve_left (Ne.symm hne)
    · intro hmem
      refine ⟨fun heq => ?_, mem_cons_of_mem _ hmem⟩
      rw [heq] at hstack
      exact hstack.method_notMem hmem
  · rw [Walk.sheetDepth_leave, Walk.depth_leave]
    have hscopes := h.scopes
    rw [scopeCount_cons] at hscopes
    rcases hscopes with hall | ⟨hbut, hzero⟩ | ⟨hdepth, hfew⟩
    · exact .inl (by omega)
    · -- The class at the bottom has a scope of its own, so the scope of `f` is among the open ones.
      have hbelow := hzero.tail (by omega)
      have hpos := hbelow.scopeCount_pos
      exact .inr (.inl ⟨by split_ifs at hbut ⊢ <;> omega, hbelow⟩)
    · split_ifs at hfew ⊢ <;> omega

lemma classAtZero_of_lt (hstack : Stack (kindsOf [f])) (hzero : f.depth = 0)
    (hfew : w.sheet.depth < scopeCount [f]) :
    w.sheet.depth + 1 = scopeCount [f] ∧ ClassAtZero [f] := by
  have hscope : f.construct.hasScope = true := by
    by_contra hnone
    simp [scopeCount, hnone] at hfew
  have hcount : scopeCount [f] = 1 := by simp [scopeCount, hscope]
  refine ⟨by omega, f, rfl, ?_, hscope, hzero⟩
  refine hstack.eq_of_singleton.resolve_left fun hskipped => ?_
  cases hc : f.construct <;> simp [hc, Construct.kind, Construct.hasScope] at *

/-- **The frames that the source has closed are left**, and the invariant holds again. -/
lemma unwindFrames (h : Leaving w frames) (recognizer : Option Recognizer) :
    (Walk.unwindFrames recognizer w frames).Nests := by
  induction frames generalizing w with
  | nil =>
    refine ⟨by simp [Walk.unwindFrames], .nil, .outside, h.inMethod, ?_⟩
    have hscopes := h.scopes
    have hcount : scopeCount [] = 0 := rfl
    exact .inl (show w.sheet.depth = 0 by omega)
  | cons f outer ih =>
    rw [Walk.unwindFrames]
    split_ifs with hdeep
    · exact ih (h.leave hdeep recognizer)
    · have hle : f.depth ≤ w.depth := Nat.le_of_not_lt hdeep
      have hbelow : ∀ g ∈ outer, g.depth < f.depth := fun g hg => rel_of_pairwise_cons h.deeper hg
      refine ⟨?_, h.deeper, h.stack.wellNested, h.inMethod, ?_⟩
      · intro g hg
        rcases mem_cons.1 hg with rfl | hg
        · exact hle
        · exact le_trans (le_of_lt (hbelow g hg)) hle
      · rcases h.scopes with hall | hbut | ⟨hdepth, hfew⟩
        · exact .inl hall
        · exact .inr hbut
        · -- At depth zero `f` is the only frame.
          have hzero : f.depth = 0 := by omega
          obtain rfl : outer = [] := by
            cases outer with
            | nil => rfl
            | cons g outer => exact absurd (hbelow g (by simp)) (by omega)
          exact .inr (classAtZero_of_lt h.stack hzero hfew)

end Leaving

/-! ## Scopes of calls -/

lemma level_classCalls (name : Text) (base : Option Text) (fields : List Text) (parameter : Text)
    (constructor : List Text) (n : Nat) :
    (classCalls name base fields parameter constructor).foldl Sheet.levelAfter n = n + 1 := by
  cases fields <;> rfl

lemma level_styleCalls (info : ClassInfo) (bound : Bool) (style : Style) (n : Nat) :
    (styleCalls l info bound style).foldl Sheet.levelAfter n =
      n + if style = .steps then 0 else 1 := by
  cases style with
  | exception => exact level_classCalls ..
  | steps => cases bound <;> rfl
  | page =>
    simp only [styleCalls, pageCalls]
    split <;> exact level_classCalls ..

lemma level_fieldCalls (style : Style) (f : FieldHeader) (annotations : List Text) (n : Nat) : (fieldCalls l style f annotations).foldl Sheet.levelAfter n = n := by
  have haccessor : ∀ name d, (accessorCalls name d).foldl levelAfter n = n := by
    intro name d
    unfold accessorCalls
    cases d.description.filter (!·.isEmpty) <;> rfl
  simp only [fieldCalls]
  split_ifs
  · rfl
  · exact haccessor ..
  · rfl
  · rfl

lemma level_startCalls (info : ClassInfo) (style : Style) (sig : Signature)
    (annotations : List Text) (ctx : Context) (n : Nat) :
    (startCalls l info style sig annotations ctx).foldl Sheet.levelAfter n = n + 1 := by
  simp only [startCalls]
  split_ifs
  · induction namedPages l info sig.name with
    | nil => rfl
    | cons f pages ih => exact ih
  · rfl

lemma level_convertCalls (line : Nat) (text : Text) (ctx : Context) (n : Nat) :
    (convertCalls line text ctx).foldl Sheet.levelAfter n = n := by
  rw [convertCalls]
  split <;> rfl

/-! ## What the functions of the walk do to the stacks -/

/-- The frames, the brace depth and whether a method is open are as before. -/
structure Stays (w w' : Walk) : Prop where
  frames : w'.frames = w.frames
  depth : w'.depth = w.depth
  inMethod : w'.context.inMethod = w.context.inMethod

/-- At most one construct has been entered, and its scope has been opened with it. -/
structure Enters (pushed : Option Construct) (w w' : Walk) : Prop where
  frames : w'.frames = (pushed.map (Frame.mk · w.depth)).toList ++ w.frames
  depth : w'.depth = w.depth
  inMethod : w'.context.inMethod = (pushed.any (·.kind = .method) || w.context.inMethod)
  scopes : w'.sheet.depth = w.sheet.depth + pushed.toList.countP Construct.hasScope
  /-- The mark of a method is where its header was written, after an empty line. -/
  marks : ∀ name mark, pushed = some (.method name mark) → mark = w.sheet.blank.mark ∧
    ∃ calls, calls.all plain = true ∧ w'.sheet = w.sheet.blank.performAll calls

lemma Enters.of_pending {w' : Walk} {pending : List Text} (h : Enters pushed { w with pending } w') :
    Enters pushed w w' :=
  ⟨h.frames, h.depth, h.inMethod, h.scopes, h.marks⟩

namespace Stays

variable {w w' : Walk}

lemma refl (w : Walk) : Stays w w := ⟨rfl, rfl, rfl⟩

variable (h : Stays w w')
include h

lemma onSheet (f : Sheet → Sheet) : Stays w (w'.onSheet f) :=
  ⟨h.frames, h.depth, h.inMethod⟩

lemma onContext {f : Context → Context} (hf : ∀ ctx, (f ctx).inMethod = ctx.inMethod) :
    Stays w (w'.onContext f) :=
  ⟨h.frames, h.depth, (hf _).trans h.inMethod⟩

lemma importClass (name : Text) : Stays w (w'.onContext (·.importClass name)) :=
  h.onContext fun ctx => Context.inMethod_of_setting (ctx.setting_importClass name)

lemma writeClass (name : Text) (base : Option Text) (fields : List Text) (parameter : Text)
    (constructor : List Text) : Stays w (w'.writeClass name base fields parameter constructor) :=
  ⟨h.frames, h.depth, h.inMethod⟩

lemma openStyle (l : Lookup) (info : ClassInfo) (style : Style) : Stays w (w'.openStyle l info style) := by
  cases style with
  | exception =>
    simp only [Walk.openStyle, Walk.openException]
    split
    · exact (h.importClass _).writeClass ..
    · exact h.writeClass ..
  | steps =>
    rw [Walk.openStyle, Walk.openSteps]
    split_ifs
    · exact h
    · exact ⟨h.frames, h.depth, h.inMethod⟩
  | page =>
    rw [Walk.openStyle, Walk.openPage]
    split
    · exact (h.importClass _).writeClass ..
    · exact h.writeClass ..

lemma convert {line : Nat} {text : Text} (hc : w'.convert line text = .ok w'') : Stays w w'' := by
  obtain ⟨⟨lines, context⟩, hs, hc⟩ := exists_of_bind_eq_ok hc
  cases hc
  have hsetting := Context.inMethod_of_setting (statement_setting hs)
  exact ⟨h.frames, h.depth, hsetting.trans h.inMethod⟩

omit h in
lemma field (w : Walk) (l : Lookup) (s : Statement) (style : Style) (f : FieldHeader)
    (annotations : List Text) : Stays w (w.field l s style f annotations) := by
  simp only [Walk.field, Walk.elementField]
  split_ifs
  · exact ⟨rfl, rfl, rfl⟩
  · split <;> exact ⟨rfl, rfl, rfl⟩
  · exact ⟨rfl, rfl, rfl⟩
  · exact ⟨rfl, rfl, rfl⟩

lemma enters_none (hscopes : w'.sheet.depth = w.sheet.depth) : Enters none w w' := by
  refine ⟨h.frames, h.depth, h.inMethod, hscopes, ?_⟩
  rintro _ _ ⟨⟩

lemma enters_some (hc : c.kind ≠ .method)
    (hscopes : w'.sheet.depth = w.sheet.depth + if c.hasScope then 1 else 0) :
    Enters (some c) w (w'.enter c) := by
  refine ⟨?_, h.depth, ?_, ?_, ?_⟩
  · rw [Walk.enter, h.frames, h.depth]
    rfl
  · simp only [any_some, hc]
    exact h.inMethod
  · rw [toList_some, countP_cons, countP_nil, zero_add]
    exact hscopes
  · rintro name mark ⟨⟩
    exact absurd rfl hc

end Stays

namespace Walk

/-- The construct that has been entered may stand where the walk is, and lies deeper than what is
around it. -/
def Allowed (frame : Option Frame) (depth : Nat) (pushed : Option Construct) : Prop :=
  ∀ c ∈ pushed, mayHold (frame.map (·.construct.kind)) c.kind = true ∧
    ∀ f ∈ frame, f.depth < depth

lemma allowed_none (frame : Option Frame) (depth : Nat) : Allowed frame depth none := by
  rintro _ ⟨⟩

lemma allowed_outside {depth : Nat} (h : mayHold none c.kind = true) : Allowed none depth (some c) := by
  rintro _ ⟨⟩
  exact ⟨h, by simp⟩

variable {around : Surroundings} {w w' : Walk}

lemma skip_enters (w : Walk) (s : Statement) (reason : Text) (opened : Bool) :
    ∃ pushed, Enters pushed w (w.skip s reason opened) ∧
      ∀ c ∈ pushed, c.kind = .skipped ∧ opened = true := by
  have hstays : Stays w (w.diagnose s reason) := ⟨rfl, rfl, rfl⟩
  cases opened with
  | true =>
    refine ⟨some .skipped, hstays.enters_some (by rintro ⟨⟩) rfl, ?_⟩
    rintro _ ⟨⟩
    exact ⟨rfl, rfl⟩
  | false => exact ⟨none, hstays.enters_none rfl, by simp⟩

lemma openClass_enters (w : Walk) (l : Lookup) (s : Statement) (h : ClassHeader) (depth : Nat) :
    ∃ pushed, Enters pushed w (w.openClass l s h) ∧ Allowed none depth pushed := by
  by_cases hkind : h.kind = "class".toList
  · obtain ⟨info, style, -, -, -, hopen⟩ := w.openClass_eq l s h hkind
    have hcontext : Stays w (w.onContext (classContext l info style)) := ⟨rfl, rfl, rfl⟩
    have hstays := hcontext.openStyle l info style
    have hscopes : ((w.onContext (classContext l info style)).openStyle l info style).sheet.depth =
        w.sheet.depth + if style = .steps then 0 else 1 := by
      rw [sheet_openStyle, depth_performAll, level_styleCalls]
      rfl
    rw [hopen]
    split_ifs with hrest hsteps
    · refine ⟨none, hstays.enters_none ?_, allowed_none _ _⟩
      rw [hscopes, if_pos hsteps]
      rfl
    · refine ⟨none, (hstays.onSheet _).enters_none ?_, allowed_none _ _⟩
      exact (depth_perform _ .closeScope).trans (by rw [hscopes, if_neg hsteps]; rfl)
    · refine ⟨some (.classBody info style), hstays.enters_some (by rintro ⟨⟩) ?_, allowed_outside rfl⟩
      rw [hscopes]
      cases style <;> rfl
  · rw [openClass, if_pos hkind]
    have hstays : Stays w (w.diagnose s ("unsupported " ++ h.kind ++ " declaration")) := ⟨rfl, rfl, rfl⟩
    exact ⟨some .skipped, hstays.enters_some (by rintro ⟨⟩) rfl, allowed_outside rfl⟩

lemma topLevel_enters (w : Walk) (l : Lookup) (s : Statement) (before depth : Nat) :
    ∃ pushed, Enters pushed w (w.topLevel l s before) ∧ Allowed none depth pushed := by
  rcases w.topLevel_cases l s before with ⟨-, _, -, hw⟩ | ⟨-, ⟨-, hw⟩ | ⟨-, ⟨h, -, hw⟩ | ⟨-, hw⟩⟩⟩
  · rw [hw]
    exact ⟨none, Stays.enters_none ⟨rfl, rfl, rfl⟩ rfl, allowed_none _ _⟩
  · rw [hw]
    exact ⟨none, Stays.enters_none ⟨rfl, rfl, rfl⟩ rfl, allowed_none _ _⟩
  · obtain ⟨pushed, henters, hallowed⟩ := openClass_enters { w with pending := [] } l s h depth
    rw [hw]
    exact ⟨pushed, henters.of_pending, hallowed⟩
  · obtain ⟨pushed, henters, hskipped⟩ := skip_enters { w with pending := [] } s "no pattern match"
      (before < w.depth)
    rw [hw]
    refine ⟨pushed, henters.of_pending, ?_⟩
    intro c hc
    rw [(hskipped c hc).1]
    exact ⟨rfl, by simp⟩

lemma noMethods_topLevel {w : Walk} (hnone : w.frames = []) (l : Lookup) (s : Statement)
    (before : Nat) : NoMethods (w.topLevel l s before).frames := by
  obtain ⟨pushed, henters, hallowed⟩ := w.topLevel_enters l s before 0
  intro f hf hkind
  rw [henters.frames, hnone, append_nil, mem_toList] at hf
  obtain ⟨c, hc, rfl⟩ := mem_map.1 hf
  have hmay := (hallowed c hc).1
  rw [hkind] at hmay
  exact absurd hmay (by decide)

lemma startMethod_spec (w : Walk) (l : Lookup) (info : ClassInfo) (style : Style) (sig : Signature)
    (annotations : List Text) :
    let started := w.startMethod l info style sig annotations
    started.frames = w.frames ∧ started.depth = w.depth ∧ started.context.inMethod = true ∧
      started.sheet.depth = w.sheet.depth + 1 := by
  have hmethod := w.startMethod_kept l (π := (·.context.inMethod))
    (fun w f => Context.inMethod_of_setting (w.context.setting_importClass f.elementType))
  refine ⟨w.startMethod_kept l (π := (·.frames)) (fun _ _ => rfl) ..,
    w.startMethod_kept l (π := (·.depth)) (fun _ _ => rfl) .., hmethod .., ?_⟩
  rw [sheet_startMethod, depth_performAll, level_startCalls]

lemma method_enters {sig : Signature} (h : w.method around s info style sig annotations opened = .ok w')
    (hm : w.context.inMethod = false) :
    ∃ pushed, Enters pushed w w' ∧
      ∀ c ∈ pushed, (c.kind = .skipped ∨ c.kind = .method) ∧ opened = true := by
  obtain ⟨hframes, hdepth, hmethod, hscopes⟩ := startMethod_spec (w.onSheet (·.blank)) around.lookup
    info style sig annotations
  have hblank : (w.onSheet (·.blank)).sheet.depth = w.sheet.depth := depth_perform w.sheet .blank
  rw [hblank] at hscopes
  rcases method_cases h with ⟨-, rfl | rfl⟩ | ⟨-, rfl, rfl⟩ | ⟨-, rfl, after, hafter, rfl⟩
  · obtain ⟨pushed, henters, hskipped⟩ := skip_enters w s "source constructor" opened
    exact ⟨pushed, henters, fun c hc => ⟨.inl (hskipped c hc).1, (hskipped c hc).2⟩⟩
  · exact ⟨none, Stays.enters_none ⟨rfl, rfl, rfl⟩ rfl, by simp⟩
  · refine ⟨some (.method sig.name (w.onSheet (·.blank)).sheet.mark),
      ⟨?_, hdepth, hmethod, hscopes, ?_⟩, ?_⟩
    · rw [enter, hframes, hdepth]
      rfl
    · rintro name mark ⟨⟩
      exact ⟨rfl, _, plain_startCalls .., sheet_startMethod ..⟩
    · rintro _ ⟨⟩
      exact ⟨.inr rfl, rfl⟩
  · -- The method is left on the line of its header, so everything is as before.
    obtain ⟨hstays, hafterScopes⟩ :
        Stays ((w.onSheet (·.blank)).startMethod around.lookup info style sig annotations) after ∧
          after.sheet.depth = w.sheet.depth + 1 := by
      split_ifs at hafter
      · cases hafter
        exact ⟨Stays.refl _, hscopes⟩
      · refine ⟨(Stays.refl _).convert hafter, ?_⟩
        rw [sheet_convert hafter, depth_performAll, level_convertCalls, hscopes]
    refine ⟨none, Stays.enters_none ⟨?_, ?_, ?_⟩ ?_, by simp⟩
    · rw [frames_finishMethod]
      exact hstays.frames.trans hframes
    · rw [depth_finishMethod]
      exact hstays.depth.trans hdepth
    · rw [inMethod_finishMethod, hm]
    · rw [sheet_finishMethod, depth_performAll, level_noteCalls]
      exact (depth_perform _ .closeScope).trans (by rw [hafterScopes]; rfl)

lemma member_enters {bodyDepth : Nat} (h : w.member around s info style bodyDepth = .ok w')
    (hm : w.context.inMethod = false) :
    ∃ pushed, Enters pushed w w' ∧
      Allowed (some ⟨.classBody info style, bodyDepth⟩) w.depth pushed := by
  have hallowed : ∀ {pushed : Option Construct}, (∀ c ∈ pushed, (c.kind = .skipped ∨ c.kind = .method) ∧
      decide (bodyDepth < w.depth) = true) →
      Allowed (some ⟨.classBody info style, bodyDepth⟩) w.depth pushed := by
    intro pushed hpushed c hc
    obtain ⟨hkind, hopened⟩ := hpushed c hc
    refine ⟨?_, ?_⟩
    · rcases hkind with hkind | hkind <;> rw [hkind] <;> rfl
    · rintro _ ⟨⟩
      exact of_decide_eq_true hopened
  rw [member_eq] at h
  cases memberPlace s info style with
  | waiting hcase =>
    rw [hcase] at h
    cases h
    exact ⟨none, Stays.enters_none ⟨rfl, rfl, rfl⟩ rfl, allowed_none _ _⟩
  | skipped reason _ hcase =>
    rw [hcase] at h
    cases h
    obtain ⟨pushed, henters, hskipped⟩ := skip_enters { w with pending := [] } s reason _
    exact ⟨pushed, henters.of_pending, hallowed fun c hc => ⟨.inl (hskipped c hc).1, (hskipped c hc).2⟩⟩
  | method sig _ _ hcase =>
    rw [hcase] at h
    obtain ⟨pushed, henters, hpushed⟩ := method_enters h hm
    exact ⟨pushed, henters.of_pending, hallowed hpushed⟩
  | field f _ hcase =>
    rw [hcase] at h
    cases h
    refine ⟨none, ((Stays.field _ around.lookup s style f _).enters_none ?_).of_pending, allowed_none _ _⟩
    rw [sheet_field, depth_performAll, level_fieldCalls]

lemma closing_enters (w : Walk) (s : Statement) (inBlock : Bool) (rest : Text)
    (hscopes : inBlock = true → 0 < w.sheet.depth) : Enters none w (w.closing s inBlock rest) := by
  rw [closing]
  split_ifs with hrest hheader
  · exact (Stays.refl w).enters_none rfl
  · cases hc : controlHeader? w.context rest with
    | none => exact Stays.enters_none ⟨rfl, rfl, rfl⟩ rfl
    | some found =>
      obtain ⟨header, context⟩ := found
      have hsetting := Context.inMethod_of_setting (controlHeader?_setting hc)
      refine Stays.enters_none ⟨rfl, rfl, hsetting⟩ ?_
      refine (depth_perform w.sheet (.chain ("\x7d " ++ header))).trans ?_
      exact max_eq_left (hscopes hheader.1)
  · exact Stays.enters_none ⟨rfl, rfl, rfl⟩ rfl

lemma opening_enters (w : Walk) (s : Statement) :
    ∃ c, Enters (some c) w (w.opening s) ∧ (c.kind = .block ∨ c.kind = .commented) := by
  rw [opening]
  cases hc : controlHeader? w.context s.text with
  | none =>
    have hstays : Stays w (w.todo s) := ⟨rfl, rfl, rfl⟩
    exact ⟨.commented, hstays.enters_some (by rintro ⟨⟩) rfl, .inr rfl⟩
  | some found =>
    have hsetting := Context.inMethod_of_setting (controlHeader?_setting hc)
    refine ⟨.block, ⟨rfl, rfl, hsetting, rfl, ?_⟩, .inl rfl⟩
    rintro _ _ ⟨⟩

lemma bodyStatement_enters {inBlock : Bool} (h : w.bodyStatement s inBlock = .ok w')
    (hscopes : inBlock = true → 0 < w.sheet.depth) :
    ∃ pushed, Enters pushed w w' ∧
      ∀ c ∈ pushed, (c.kind = .block ∨ c.kind = .commented) ∧ s.closes < s.opens := by
  cases bodyPlace s with
  | closing r _ _ hwalk _ =>
    rw [hwalk] at h
    cases h
    exact ⟨none, closing_enters w s inBlock _ hscopes, by simp⟩
  | opening _ hopens _ hwalk _ =>
    rw [hwalk] at h
    cases h
    obtain ⟨c, henters, hkind⟩ := opening_enters w s
    refine ⟨some c, henters, ?_⟩
    rintro _ ⟨⟩
    exact ⟨hkind, hopens⟩
  | other _ _ _ hwalk _ =>
    rw [hwalk] at h
    refine ⟨none, ?_, by simp⟩
    cases hpart : bodyPart? s with
    | none =>
      rw [hpart] at h
      cases h
      exact (Stays.refl w).enters_none rfl
    | some part =>
      rw [hpart] at h
      refine ((Stays.refl w).convert h).enters_none ?_
      rw [sheet_convert h, depth_performAll, level_convertCalls]

/-- **One statement**, before the frames it closed are left: it enters at most one construct, which
may stand where the walk is. -/
lemma within_enters {before : Nat} {frame : Option Frame} (h : w.within around before s frame = .ok w')
    (hclass : ∀ f ∈ frame, f.construct.kind = .classBody → w.context.inMethod = false)
    (hblock : ∀ f ∈ frame, f.construct.kind = .block → 0 < w.sheet.depth)
    (hopens : s.closes < s.opens → ∀ f ∈ frame, f.depth < w.depth) :
    ∃ pushed, Enters pushed w w' ∧ Allowed frame w.depth pushed := by
  have hstay : ∃ pushed, Enters pushed w w ∧ Allowed frame w.depth pushed :=
    ⟨none, (Stays.refl w).enters_none rfl, allowed_none _ _⟩
  have hbody : ∀ f inBlock, frame = some f → w.bodyStatement s inBlock = .ok w' →
      (inBlock = true → 0 < w.sheet.depth) →
      (f.construct.kind = .method ∨ f.construct.kind = .block) →
      ∃ pushed, Enters pushed w w' ∧ Allowed frame w.depth pushed := by
    rintro f inBlock rfl hb hscopes hkind
    obtain ⟨pushed, henters, hpushed⟩ := bodyStatement_enters hb hscopes
    refine ⟨pushed, henters, fun c hc => ⟨?_, hopens (hpushed c hc).2⟩⟩
    rcases hkind with hkind | hkind <;> rcases (hpushed c hc).1 with hc | hc <;>
      rw [map_some, hkind, hc] <;> rfl
  unfold within at h
  split_ifs at h
  · cases h
    exact hstay
  rcases frame with _ | ⟨_ | ⟨info, style⟩ | ⟨name, mark⟩ | _ | _, depth⟩
  · cases h
    exact topLevel_enters w around.lookup s before w.depth
  · cases h
    exact hstay
  · dsimp only at h
    split_ifs at h
    · exact member_enters h (hclass _ rfl rfl)
    · cases h
      exact hstay
  · exact hbody _ false rfl h (by simp) (.inl rfl)
  · exact hbody _ true rfl h (fun _ => hblock _ rfl rfl) (.inr rfl)
  · cases h
    exact ⟨none, Stays.enters_none ⟨rfl, rfl, rfl⟩ rfl, allowed_none _ _⟩

end Walk

/-! ## Steps -/

namespace Leaving

variable {w w' : Walk} {c : Construct}

lemma depth_lt_of_head {depth : Nat} (h : Leaving w frames) (hhead : ∀ f ∈ frames.head?, f.depth < depth) :
    ∀ g ∈ frames, g.depth < depth := by
  cases frames with
  | nil => exact forall_mem_nil _
  | cons f outer =>
    have hf : f.depth < depth := hhead f rfl
    refine forall_mem_cons.2 ⟨hf, fun g hg => ?_⟩
    have hbelow : g.depth < f.depth := rel_of_pairwise_cons h.deeper hg
    exact lt_trans hbelow hf

lemma push (h : Leaving w w.frames) (he : Enters (some c) w w')
    (hmay : mayHold (w.frames.head?.map (·.construct.kind)) c.kind = true)
    (hdeep : ∀ f ∈ w.frames.head?, f.depth < w.depth) : Leaving w' (⟨c, w.depth⟩ :: w.frames) := by
  have hall := h.depth_lt_of_head hdeep
  have hhead : (kindsOf w.frames).head? = w.frames.head?.map (·.construct.kind) := by
    rw [kindsOf, head?_map]
  refine ⟨pairwise_cons.2 ⟨hall, h.deeper⟩, h.stack.push (hhead ▸ hmay), ?_, ?_⟩
  · rw [he.inMethod, Bool.or_eq_true, h.inMethod, any_some, decide_eq_true_eq]
    constructor
    · rintro (hc | hmem)
      · exact mem_cons.2 (.inl hc.symm)
      · exact mem_cons_of_mem _ hmem
    · intro hmem
      exact (mem_cons.1 hmem).imp Eq.symm id
  · have hsheet : w'.sheet.depth = w.sheet.depth + if c.hasScope then 1 else 0 := by
      rw [he.scopes, toList_some, countP_cons, countP_nil, zero_add]
    rw [hsheet, scopeCount_cons]
    rcases h.scopes with hfull | ⟨hbut, hzero⟩ | ⟨hdepth, hfew⟩
    · exact .inl (by rw [hfull])
    · exact .inr (.inl ⟨by dsimp only; omega, hzero.cons _⟩)
    · -- No scope is missing where something is entered: the source is not at depth zero.
      cases hw : w.frames with
      | nil =>
        rw [hw] at hfew
        exact absurd hfew (Nat.not_lt_zero _)
      | cons f outer => exact absurd (hall f (by rw [hw]; simp)) (by omega)

lemma enters (h : Leaving w w.frames) (he : Enters pushed w w')
    (ha : Walk.Allowed w.frames.head? w.depth pushed) : Leaving w' w'.frames := by
  cases pushed with
  | none =>
    have hframes : w'.frames = w.frames := he.frames
    have hmethod : w'.context.inMethod = w.context.inMethod := he.inMethod
    have hsheet : w'.sheet.depth = w.sheet.depth := he.scopes
    rw [hframes]
    refine ⟨h.deeper, h.stack, hmethod ▸ h.inMethod, ?_⟩
    rw [hsheet, he.depth]
    exact h.scopes
  | some c =>
    obtain ⟨hmay, hdeep⟩ := ha c rfl
    have hframes : w'.frames = ⟨c, w.depth⟩ :: w.frames := he.frames
    rw [hframes]
    exact h.push he hmay hdeep

end Leaving

lemma Body.le_scopeCount (h : Body (kindsOf frames)) :
    ∃ bottom, frames.getLast? = some bottom ∧
      1 + (if bottom.construct.hasScope then 1 else 0) ≤ scopeCount frames := by
  have hscope : ∀ c : Construct, c.kind = .method ∨ c.kind = .block → c.hasScope = true := by
    intro c hc
    cases c <;> first | rfl | simp [Construct.kind] at hc
  generalize hks : kindsOf frames = ks at h
  induction h generalizing frames with
  | method =>
    obtain ⟨m, rest, rfl, hm, hks⟩ := map_eq_cons_iff.1 hks
    obtain ⟨c, rest, rfl, -, hks⟩ := map_eq_cons_iff.1 hks
    obtain rfl := map_eq_nil_iff.1 hks
    have hmethod := hscope _ (.inl hm)
    refine ⟨c, rfl, ?_⟩
    rw [scopeCount_cons, scopeCount_cons, if_pos hmethod]
    omega
  | block _ ih =>
    obtain ⟨b, rest, rfl, -, hks⟩ := map_eq_cons_iff.1 hks
    obtain ⟨bottom, hbottom, hle⟩ := ih hks
    refine ⟨bottom, by rw [getLast?_cons, hbottom]; rfl, ?_⟩
    rw [scopeCount_cons]
    omega

namespace Walk

variable (w : Walk)

lemma frames_count (s : Statement) : (w.count s).frames = w.frames := by
  simp only [count]
  split_ifs <;> rfl

lemma context_count (s : Statement) : (w.count s).context = w.context := by
  simp only [count]
  split_ifs <;> rfl

lemma depth_count (s : Statement) : (w.count s).depth = w.depth + s.opens - s.closes := by
  simp only [count]
  split_ifs <;> rfl

lemma sheetDepth_count (s : Statement) :
    (w.count s).sheet.depth =
      w.sheet.depth - if w.depth + s.opens < s.closes then 1 else 0 := by
  rw [sheet_count, depth_performAll, countCalls]
  split_ifs <;> rfl

end Walk

namespace Walk.Nests

variable {w w' : Walk} {around : Surroundings} {s : Statement}

lemma count (h : w.Nests) (s : Statement) : Leaving (w.count s) (w.count s).frames := by
  rw [frames_count]
  refine ⟨h.deeper, h.stack, context_count w s ▸ h.inMethod, ?_⟩
  rw [sheetDepth_count, depth_count]
  split_ifs with hunder
  · rcases h.scopes with hall | ⟨hbut, -⟩
    · omega
    · exact .inr (.inr ⟨by omega, by omega⟩)
  · exact h.scopes.imp_right .inl

/-- Two frames with scopes lie under the frame of a block, so one stays open even when a brace too
many is counted. -/
lemma scopes_of_block (h : w.Nests) {f : Frame} (hf : f ∈ w.frames.head?)
    (hblock : f.construct.kind = .block) (s : Statement) : 0 < (w.count s).sheet.depth := by
  obtain ⟨outer, hw⟩ : ∃ outer, w.frames = f :: outer := by
    cases hw : w.frames with
    | nil => rw [hw] at hf; cases hf
    | cons g outer =>
      rw [hw] at hf
      cases hf
      exact ⟨outer, rfl⟩
  have hstack : Stack (.block :: kindsOf outer) := by
    have := h.stack
    rw [hw] at this
    exact hblock ▸ this
  obtain ⟨bottom, hbottom, hle⟩ := hstack.body_of_block.le_scopeCount
  have hscope : f.construct.hasScope = true := by
    cases hc : f.construct <;> simp [hc, Construct.kind, Construct.hasScope] at hblock ⊢
  have hcount : scopeCount w.frames = scopeCount outer + 1 := by
    rw [hw, scopeCount_cons, hscope]
    rfl
  rw [sheetDepth_count]
  rcases h.scopes with hall | ⟨hbut, top, htop, -, hclass, -⟩
  · split_ifs at hle ⊢ <;> omega
  · rw [hw, getLast?_cons, hbottom] at htop
    obtain rfl : bottom = top := some.inj htop
    rw [if_pos hclass] at hle
    split_ifs <;> omega

lemma within {inside : Walk} (h : w.Nests)
    (hinside : (w.count s).within around w.depth s w.frames.head? = .ok inside) :
    ∃ pushed, Enters pushed (w.count s) inside ∧ Leaving inside inside.frames := by
  have hclass : ∀ f ∈ w.frames.head?, f.construct.kind = .classBody →
      (w.count s).context.inMethod = false := by
    intro f hf hkind
    rw [context_count, ← Bool.not_eq_true, h.inMethod]
    exact h.stack.method_notMem_of_class (by rw [kindsOf, head?_map, hf, ← hkind]; rfl)
  have hopens : s.closes < s.opens → ∀ f ∈ w.frames.head?, f.depth < (w.count s).depth := by
    intro hopens f hf
    have hle := h.le_depth f (mem_of_mem_head? hf)
    rw [depth_count]
    omega
  obtain ⟨pushed, henters, hallowed⟩ := within_enters hinside hclass
    (fun f hf hblock => h.scopes_of_block hf hblock s) hopens
  rw [← frames_count w s] at hallowed
  exact ⟨pushed, henters, (h.count s).enters henters hallowed⟩

/-- **One statement** keeps the invariant. -/
lemma step (h : w.Nests) (hstep : w.step around s = .ok w') : w'.Nests := by
  rw [Walk.step] at hstep
  split_ifs at hstep with hcomment hkeeps
  · cases hstep
    refine ⟨h.le_depth, h.deeper, h.nested, h.inMethod, ?_⟩
    have hsheet : (w.sheet.emitAll (s.rawLines.map commentLine)).depth = w.sheet.depth :=
      depth_perform w.sheet (.emit _)
    rw [sheet_onSheet, hsheet]
    exact h.scopes
  · cases hstep
    exact h
  · obtain ⟨inside, hinside, hstep⟩ := exists_of_bind_eq_ok hstep
    obtain ⟨-, rfl⟩ := checked_eq_ok_iff.1 hstep
    obtain ⟨_, -, hleaving⟩ := h.within hinside
    exact hleaving.unwindFrames around.recognizer

/-- **A walk** over any statements keeps the invariant. -/
lemma foldlM {statements : List Statement} (h : w.Nests)
    (hwalk : statements.foldlM (Walk.step around) w = .ok w') : w'.Nests :=
  foldlM_invariant Nests.step hwalk h

end Walk.Nests

lemma Task.start_nests (t : Task) : t.start.Nests := by
  refine ⟨?_, .nil, .outside, ?_, .inl rfl⟩
  · rintro _ ⟨⟩
  · constructor <;> rintro ⟨⟩

/-! ## Continued blocks -/

def FindsScope (sheet : Sheet) (c : Call) : Prop := ∀ line, c = .chain line → sheet.scopes ≠ []

lemma along_findsScope_of_plain {calls : List Call} (h : calls.all plain = true) (sheet : Sheet) :
    sheet.Along FindsScope calls := by
  refine along_of_forall (fun c hc _ line hchain => ?_) sheet
  rw [hchain] at hc
  exact absurd (all_eq_true.1 h _ hc) Bool.false_ne_true

/-- **Continued blocks.**  Whatever statement comes next, a scope is open when it chains one. -/
lemma Walk.Nests.findsScope (h : w.Nests) (around : Surroundings) (s : Statement) :
    w.sheet.Along FindsScope (stepCalls around w s) := by
  rw [stepCalls]
  split_ifs
  · exact along_findsScope_of_plain rfl _
  · trivial
  rw [along_append, along_append]
  refine ⟨⟨?_, ?_⟩, ?_⟩
  · exact along_findsScope_of_plain (plain_countCalls w s) _
  · rw [← sheet_count]
    rcases withinCalls_cases around (w.count s) w.depth s w.frames.head? with
      hplain | ⟨depth, line, hframe, hline⟩ | ⟨_, _, _, calls, after, -, hcalls, hnote⟩
    · exact along_findsScope_of_plain hplain _
    · rw [hline]
      exact ⟨fun _ _ => ne_nil_of_length_pos (h.scopes_of_block hframe rfl s), trivial⟩
    · rw [hnote]
      refine along_append.2 ⟨along_findsScope_of_plain ?_ _, ?_⟩
      · rw [all_cons, hcalls]
        rfl
      · refine along_of_forall (fun c hc _ => ?_) _
        obtain ⟨lines, rfl⟩ := mem_noteCalls hc
        rintro _ ⟨⟩
  · split
    · refine along_of_forall (fun c hc _ => ?_) _
      rcases mem_unwindCalls hc with rfl | rfl | ⟨_, mark, hnote⟩
      iterate 2 rintro _ ⟨⟩
      obtain ⟨lines, rfl⟩ := mem_noteCalls hnote
      rintro _ ⟨⟩
    · trivial

/-- **Nesting.**  After any statements of any document, balanced or not, the frames and the scopes
are in step, and whichever statement comes next, no scope is chained while none is open.  The calls
of that statement are all that it does to the sheet. -/
theorem walk_nests (t : Task) (statements : List Statement) (w : Walk)
    (h : statements.foldlM (Walk.step t.surroundings) t.start = .ok w) :
    w.Nests ∧ ∀ s, w.sheet.Along FindsScope (stepCalls t.surroundings w s) ∧
      ∀ w', w.step t.surroundings s = .ok w' →
        w'.sheet = w.sheet.performAll (stepCalls t.surroundings w s) :=
  have hnests := t.start_nests.foldlM h
  ⟨hnests, fun s => ⟨hnests.findsScope t.surroundings s, fun _ => Walk.sheet_step⟩⟩

/-- A class that ends on its own line, a brace too many, and a block that is continued: a scope is
missing, and the class lies at depth zero. -/
theorem walk_nests_unbalanced :
    let t : Task := { document := ⟨["class A \x7b int x = 1; \x7d", "\x7d", "void m() \x7b",
      "if (a) \x7b", "b();", "\x7d else \x7b"]⟩ }
    ∃ w, t.document.statements.foldlM (Walk.step t.surroundings) t.start = .ok w ∧
      kindsOf w.frames = [.block, .method, .classBody] ∧ w.sheet.depth + 1 = scopeCount w.frames ∧
      w.Nests ∧ ∀ s, w.sheet.Along FindsScope (stepCalls t.surroundings w s) ∧
        ∀ w', w.step t.surroundings s = .ok w' →
          w'.sheet = w.sheet.performAll (stepCalls t.surroundings w s) := by
  intro t
  have hwalk : ∃ w, t.document.statements.foldlM (Walk.step t.surroundings) t.start = .ok w ∧
      kindsOf w.frames = [.block, .method, .classBody] ∧
      w.sheet.depth + 1 = scopeCount w.frames :=
    exists_of_any_toOption (by decide +kernel)
  obtain ⟨w, hw, hkinds, hscopes⟩ := hwalk
  exact ⟨w, hw, hkinds, hscopes, walk_nests t _ w hw⟩

end Restage.Conversion
