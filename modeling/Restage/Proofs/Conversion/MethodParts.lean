import Restage.Proofs.Conversion.Faults
import Restage.Proofs.Conversion.NamedClasses

/-!
# The parts of a file that belong to its methods

A statement in the body of a class may declare a method, and then the statements up to the one that
closes its body belong to the method (`MethodPart`).  What is written for a method is told apart by
where it comes from: its header, the page objects at its start, the statements that are converted,
the headers of blocks, and what is kept as a comment (`Emission`).  The emissions make the calls of
the method, in their order (`MethodPart.calls_emissions`).

All texts of a method are converted in contexts with one setting, the one that its header has made
(`MethodPart.Within`).
-/

namespace Restage.Conversion

open Text Java TypeScript List Option Walk

/-! ## What is written for a method -/

/-- Whether a call writes no line of code: it closes a scope, leaves a blank or inserts a note. -/
def isMargin : Call → Bool
  | .closeScope | .blank | .insert _ _ => true
  | .addImport _ | .emit _ | .comment _ | .openScope _ _ | .chain _ => false

variable {w : Walk} {c : Call} {recognizer : Option Recognizer} {frames : List Frame} {ctx : Context}
  {setting : Context}

lemma isMargin_of_mem_countCalls {s : Statement} (h : c ∈ countCalls w s) : isMargin c = true := by
  rw [countCalls] at h
  split_ifs at h
  · rw [mem_singleton.1 h]
    rfl
  · cases h

lemma isMargin_of_mem_noteCalls {mark : Nat} (h : c ∈ noteCalls recognizer w mark) : isMargin c = true := by
  obtain ⟨best, -, rfl⟩ := map_eq_some_iff.1 (mem_toList.1 h)
  rfl

lemma isMargin_of_mem_unwindCalls (h : c ∈ unwindCalls recognizer w frames) : isMargin c = true := by
  rcases mem_unwindCalls h with rfl | rfl | ⟨_, _, h⟩
  · rfl
  · rfl
  · exact isMargin_of_mem_noteCalls h

/-- Something that is written for a method. -/
inductive Emission where
  | header (h : MethodHeader)
  /-- A page object that is constructed at the start. -/
  | page (f : FieldInfo)
  /-- A text that is handed to the rules. -/
  | code (line : Nat) (text : Text) (ctx : Context)
  /-- A control header that opens a block. -/
  | block (text : Text) (ctx : Context)
  /-- A control header that continues a block. -/
  | chain (text : Text) (ctx : Context)
  /-- A statement that is kept as a comment. -/
  | kept (s : Statement)
  | comment (s : Statement)
  /-- A call that writes no line of code. -/
  | margin (c : Call)

namespace Emission

/-- The calls that are made for it. -/
def calls : Emission → List Call
  | header h => [.openScope h.line h.closer]
  | page f => [.emit ["const " ++ f.name ++ " = new " ++ f.elementType ++ "(page);"]]
  | code line text ctx => convertCalls line text ctx
  | block text ctx => ((controlHeader? ctx text).map fun said => .openScope said.1 "\x7d").toList
  | chain text ctx => ((controlHeader? ctx text).map fun said => .chain ("\x7d " ++ said.1)).toList
  | kept s => todoCalls s
  | comment s => [.emit (s.rawLines.map Walk.commentLine)]
  | margin c => [c]

/-- The context in which a text is converted. -/
def context? : Emission → Option Context
  | code _ _ ctx | block _ ctx | chain _ ctx => some ctx
  | header _ | page _ | kept _ | comment _ | margin _ => none

/-- What is written in a method whose header has made the given setting: texts are converted in it,
and page objects are named by words. -/
structure Within (setting : Context) (e : Emission) : Prop where
  context : ∀ ctx ∈ e.context?, ctx.Neat ∧ ctx.setting = setting
  page : ∀ f, e = .page f → isWordText f.name = true
  margin : ∀ c, e = .margin c → isMargin c = true

namespace Within

variable {setting : Context}

lemma ofMargin (hc : isMargin c = true) : Within setting (.margin c) :=
  ⟨by rintro _ ⟨⟩, by rintro _ ⟨⟩, by rintro _ ⟨⟩; exact hc⟩

lemma ofMargins {calls : List Call} (h : ∀ c ∈ calls, isMargin c = true) :
    ∀ e ∈ calls.map Emission.margin, Within setting e :=
  List.forall_mem_map.2 fun c hc => .ofMargin (h c hc)

lemma header (h : MethodHeader) : Within setting (.header h) :=
  ⟨by rintro _ ⟨⟩, by rintro _ ⟨⟩, by rintro _ ⟨⟩⟩

lemma ofPage {f : FieldInfo} (hf : isWordText f.name = true) : Within setting (.page f) :=
  ⟨by rintro _ ⟨⟩, by rintro _ ⟨⟩; exact hf, by rintro _ ⟨⟩⟩

lemma kept (s : Statement) : Within setting (.kept s) :=
  ⟨by rintro _ ⟨⟩, by rintro _ ⟨⟩, by rintro _ ⟨⟩⟩

lemma comment (s : Statement) : Within setting (.comment s) :=
  ⟨by rintro _ ⟨⟩, by rintro _ ⟨⟩, by rintro _ ⟨⟩⟩

lemma converted {e : Emission} (he : e.context? = some ctx) (hneat : ctx.Neat)
    (hsetting : ctx.setting = setting) : Within setting e := by
  refine ⟨fun ctx' hctx' => ?_, fun f hf => ?_, fun c hc => ?_⟩
  · cases he.symm.trans hctx'
    exact ⟨hneat, hsetting⟩
  · subst hf
    cases he
  · subst hc
    cases he

end Within

end Emission

/-- The calls that some emissions make. -/
def emittedCalls (es : List Emission) : List Call := es.flatMap Emission.calls

lemma emittedCalls_margin (calls : List Call) : emittedCalls (calls.map .margin) = calls := by
  rw [emittedCalls, flatMap_map]
  exact flatMap_singleton' calls

lemma emittedCalls_append (es es' : List Emission) :
    emittedCalls (es ++ es') = emittedCalls es ++ emittedCalls es' :=
  flatMap_append

/-- What is written for a statement in the body of a method. -/
def bodyEmissions (s : Statement) (inBlock : Bool) (ctx : Context) : List Emission :=
  if s.text.head? = some '\x7d' then
    let rest := trim s.text.tail
    if rest.isEmpty ∨ rest = ";".toList then []
    else if (inBlock ∧ s.opens ≠ 0) ∧ (controlHeader? ctx rest).isSome then [.chain rest ctx]
    else [.kept s]
  else if s.closes < s.opens then
    if (controlHeader? ctx s.text).isSome then [.block s.text ctx] else [.kept s]
  else ((Walk.bodyPart? s).map (.code s.line · ctx)).toList

lemma calls_bodyEmissions (s : Statement) (inBlock : Bool) (ctx : Context) :
    emittedCalls (bodyEmissions s inBlock ctx) = bodyCalls s inBlock ctx := by
  have hone : ∀ e : Emission, emittedCalls [e] = e.calls := fun e => flatMap_singleton ..
  rw [bodyEmissions]
  cases bodyPlace s with
  | closing r htext _ _ hcalls =>
    rw [htext, if_pos head?_cons, hcalls, tail_cons, closingCalls]
    by_cases hrest : (trim r).isEmpty = true ∨ trim r = ";".toList
    · rw [if_pos hrest, if_pos hrest]
      rfl
    rw [if_neg hrest, if_neg hrest]
    by_cases hblock : inBlock = true ∧ s.opens ≠ 0
    · rw [if_pos hblock]
      cases hheader : controlHeader? ctx (trim r) with
      | none =>
        rw [if_neg (by simp)]
        exact hone _
      | some said =>
        rw [if_pos ⟨hblock, rfl⟩, hone, Emission.calls, hheader]
        rfl
    · rw [if_neg hblock, if_neg fun h => hblock h.1]
      exact hone _
  | opening hhead hopens _ _ hcalls =>
    rw [if_neg hhead, if_pos hopens, hcalls, openingCalls]
    cases hheader : controlHeader? ctx s.text with
    | none =>
      rw [if_neg (by simp)]
      exact hone _
    | some said =>
      rw [if_pos isSome_some, hone, Emission.calls, hheader]
      rfl
  | other hhead hopens _ _ hcalls =>
    rw [if_neg hhead, if_neg hopens, hcalls]
    cases bodyPart? s with
    | none => rfl
    | some part => exact hone _

lemma within_bodyEmissions (hneat : ctx.Neat) (s : Statement) (inBlock : Bool) :
    ∀ e ∈ bodyEmissions s inBlock ctx, e.Within ctx.setting := by
  have hconverted : ∀ e : Emission, e.context? = some ctx → ∀ e' ∈ [e], e'.Within ctx.setting := by
    intro e he
    exact forall_mem_singleton.2 (.converted he hneat rfl)
  have hkept : ∀ e ∈ [Emission.kept s], e.Within ctx.setting := forall_mem_singleton.2 (.kept s)
  rw [bodyEmissions]
  dsimp only
  split_ifs
  · exact forall_mem_nil _
  · exact hconverted _ rfl
  · exact hkept
  · exact hconverted _ rfl
  · exact hkept
  · cases bodyPart? s with
    | none => exact forall_mem_nil _
    | some part => exact hconverted _ rfl

/-! ## Methods that are declared -/

/-- A method that a statement declares. -/
structure DeclaredMethod where
  info : ClassInfo
  style : Style
  sig : Signature
  annotations : List Text
  /-- Whether the body goes on after the statement. -/
  opened : Bool

namespace DeclaredMethod

variable (d : DeclaredMethod) (around : Surroundings)

/-- The walk after the header of the method. -/
def start (d : DeclaredMethod) (around : Surroundings) (w : Walk) : Walk :=
  (w.onSheet (·.blank)).startMethod around.lookup d.info d.style d.sig d.annotations

def header (d : DeclaredMethod) (around : Surroundings) (w : Walk) : MethodHeader :=
  (methodHeader around.lookup d.style d.sig (stepAnnotation? d.annotations) w.context).1

/-- What is written for the body of a method that stands on one line with its header. -/
def inlineEmissions (d : DeclaredMethod) (around : Surroundings) (w : Walk) (line : Nat) :
    List Emission :=
  let body := Walk.inlineBody (trim d.sig.ending)
  let started := d.start around w
  match if body.isEmpty then .ok started else started.convert line body with
  | .ok after =>
    (if body.isEmpty then [] else [.code line body started.context]) ++
      .margin .closeScope ::
        (noteCalls around.recognizer after (w.onSheet (·.blank)).sheet.mark).map .margin
  | .error _ => []

/-- What is written for the statement that declares the method. -/
def emissions (d : DeclaredMethod) (around : Surroundings) (w : Walk) (line : Nat) : List Emission :=
  .margin .blank :: .header (d.header around w) ::
    (if d.style = .steps then (namedPages around.lookup d.info d.sig.name).map .page else []) ++
      if d.opened then [] else d.inlineEmissions around w line

lemma calls_emissions (w : Walk) (s : Statement)
    (h : ¬(d.sig.isConstructor = true ∨ trim d.sig.ending = ";".toList)) :
    emittedCalls (d.emissions around w s.line) =
      methodCalls around w s d.info d.style d.sig d.annotations d.opened := by
  have hinline : emittedCalls (d.inlineEmissions around w s.line) =
      inlineCalls around.recognizer (d.start around w) s.line (inlineBody (trim d.sig.ending))
        (w.onSheet (·.blank)).sheet.mark := by
    unfold inlineEmissions inlineCalls
    dsimp only
    cases if (inlineBody (trim d.sig.ending)).isEmpty then .ok (d.start around w)
        else (d.start around w).convert s.line (inlineBody (trim d.sig.ending)) with
    | error fault => rfl
    | ok after =>
      dsimp only
      rw [emittedCalls_append, ← map_cons, emittedCalls_margin]
      split_ifs
      · rfl
      · exact congrArg (· ++ _) (flatMap_singleton ..)
  have hpages : emittedCalls ((namedPages around.lookup d.info d.sig.name).map .page) =
      (namedPages around.lookup d.info d.sig.name).map fun f =>
        .emit ["const " ++ f.name ++ " = new " ++ f.elementType ++ "(page);"] := by
    rw [emittedCalls, flatMap_map]
    exact flatMap_pure_eq_map ..
  rw [methodCalls]
  dsimp only
  rw [if_neg h, emissions, startCalls]
  have hstart : ∀ es : List Emission, emittedCalls (.margin .blank :: .header (d.header around w) :: es) =
      .blank :: .openScope (d.header around w).line (d.header around w).closer :: emittedCalls es :=
    fun es => rfl
  rw [emittedCalls_append, hstart]
  congr 1
  · split_ifs
    · rw [hpages]
      rfl
    · rfl
  · split_ifs
    · rfl
    · exact hinline

lemma within_emissions (hneat : w.context.Neat) (hinfo : d.info.Named) (line : Nat) :
    ∀ e ∈ d.emissions around w line, e.Within (d.start around w).context.setting := by
  have hblank : (w.onSheet (·.blank)).context.Neat := hneat
  have hstarted : (d.start around w).context.Neat :=
    hblank.startMethod around.lookup hinfo d.style d.sig d.annotations
  refine forall_mem_append.2 ⟨forall_mem_cons.2 ⟨.ofMargin rfl, forall_mem_cons.2 ⟨.header _, ?_⟩⟩, ?_⟩
  · split_ifs
    · exact forall_mem_map.2 fun f hf => .ofPage (hinfo.fields f (mem_filter.1 hf).1)
    · exact forall_mem_nil _
  · split_ifs
    · exact forall_mem_nil _
    · unfold inlineEmissions
      dsimp only
      split
      · refine forall_mem_append.2 ⟨?_, forall_mem_cons.2 ⟨.ofMargin rfl, .ofMargins ?_⟩⟩
        swap
        · exact fun c hc => isMargin_of_mem_noteCalls hc
        split_ifs
        · exact forall_mem_nil _
        · exact forall_mem_singleton.2 (.converted rfl hstarted rfl)
      · exact forall_mem_nil _

end DeclaredMethod

namespace Walk

variable {around : Surroundings} {w w' : Walk} {s : Statement}

/-- The method that a statement declares in the body of a class.  Constructors and methods without a
body are none. -/
def declaredMethod? (w : Walk) (s : Statement) : Option DeclaredMethod :=
  match if s.isComment ∨ isClosersOnly s.text then none else w.frames.head? with
  | some ⟨.classBody info style, depth⟩ =>
    let text := (splitAnnotations s.text).2
    if w.depth ≠ depth ∨ text.isEmpty ∨ style = .exception ∨ (classHeader? (stripGenerics text)).isSome then
      none
    else ((signature? (some info.name) text).filter fun sig =>
      !sig.isConstructor && trim sig.ending != ";".toList).map fun sig =>
        { info, style, sig
          annotations := w.pending ++ (splitAnnotations s.text).1
          opened := depth < (w.count s).depth }
  | _ => none

/-- The walk in which a method is declared. -/
def atMethod (w : Walk) (s : Statement) : Walk := { w.count s with pending := [] }

/-- A statement that declares a method is taken as one. -/
structure Declares (around : Surroundings) (w : Walk) (s : Statement) (d : DeclaredMethod) : Prop where
  code : s.isComment = false
  kept : ¬(d.sig.isConstructor = true ∨ trim d.sig.ending = ";".toList)
  style : d.style ≠ .exception
  frame : ∃ depth, w.frames.head? = some ⟨.classBody d.info d.style, depth⟩
  calls : withinCalls around (w.count s) w.depth s w.frames.head? =
    methodCalls around (w.atMethod s) s d.info d.style d.sig d.annotations d.opened
  within : (w.count s).within around w.depth s w.frames.head? =
    (w.atMethod s).method around s d.info d.style d.sig d.annotations d.opened

lemma declares_of_declaredMethod? {d : DeclaredMethod} (h : w.declaredMethod? s = some d)
    (around : Surroundings) : Declares around w s d := by
  rw [declaredMethod?] at h
  by_cases hskip : s.isComment = true ∨ isClosersOnly s.text = true
  · rw [if_pos hskip] at h
    cases h
  rw [if_neg hskip] at h
  obtain ⟨hcode, hclosers⟩ := not_or.1 hskip
  rcases hframe : w.frames.head? with _ | ⟨_ | ⟨info, style⟩ | ⟨name, mark⟩ | _ | _, depth⟩
  · rw [hframe] at h; cases h
  · rw [hframe] at h; cases h
  · rw [hframe] at h
    dsimp only at h
    split_ifs at h with hother
    obtain ⟨sig, hsig, rfl⟩ := map_eq_some_iff.1 h
    obtain ⟨hsig, hmethod⟩ := filter_eq_some_iff.1 hsig
    obtain ⟨hdepth, hempty, hstyle, hnested⟩ : w.depth = depth ∧ ¬(splitAnnotations s.text).2.isEmpty = true ∧
        style ≠ .exception ∧ ¬(classHeader? (stripGenerics (splitAnnotations s.text).2)).isSome = true := by
      simpa only [not_or, not_not] using hother
    have hkept : ¬(sig.isConstructor = true ∨ trim sig.ending = ";".toList) := by
      simpa using hmethod
    have hin : ¬(isClosersOnly s.text = true ∧
        (!isCommented (some ⟨.classBody info style, depth⟩)) = true) := fun h => hclosers h.1
    have hpending : (w.count s).pending = w.pending := by
      rw [count]
      split_ifs <;> rfl
    refine ⟨by simpa using hcode, hkept, hstyle, ⟨depth, hframe⟩, ?_, ?_⟩
    · rw [hframe, withinCalls, if_neg hin]
      rw [if_pos hdepth, memberCalls]
      dsimp only
      rw [if_neg hempty, declarationCalls, if_neg (not_or.2 ⟨hstyle, hnested⟩), hsig, hpending]
      rfl
    · rw [hframe, within, if_neg hin]
      rw [if_pos hdepth, member]
      dsimp only
      rw [if_neg hempty, declaration, if_neg hstyle, if_neg hnested, hsig, hpending]
      rfl
  · rw [hframe] at h; cases h
  · rw [hframe] at h; cases h
  · rw [hframe] at h; cases h

/-! ## Statements of a method -/

/-- What is written for the statement itself, if it declares a method or stands in one. -/
def innerEmissions (around : Surroundings) (w : Walk) (s : Statement) : List Emission :=
  match w.declaredMethod? s with
  | some d => d.emissions around (w.atMethod s) s.line
  | none =>
    if isClosersOnly s.text ∧ !isCommented w.frames.head? then []
    else match w.frames.head? with
      | some ⟨.method _ _, _⟩ => bodyEmissions s false w.context
      | some ⟨.block, _⟩ => bodyEmissions s true w.context
      | some ⟨.commented, _⟩ => [.kept s]
      | _ => []

/-- What is written for a statement that declares a method or stands in one. -/
def emissions (around : Surroundings) (w : Walk) (s : Statement) : List Emission :=
  if s.isComment then if keepsComments w.frames.head? then [.comment s] else []
  else
    (countCalls w s).map .margin ++ w.innerEmissions around s ++
      match (w.count s).within around w.depth s w.frames.head? with
      | .ok inside => (unwindCalls around.recognizer inside inside.frames).map .margin
      | .error _ => []

lemma Nests.head_of_inMethod (hn : w.Nests) (hmethod : w.context.inMethod = true) :
    ∃ f, w.frames.head? = some f ∧
      (f.construct.kind = .method ∨ f.construct.kind = .block ∨ f.construct.kind = .commented) := by
  have hmem := hn.inMethod.1 hmethod
  have hstack := hn.stack
  cases hframes : w.frames with
  | nil =>
    rw [hframes] at hmem
    cases hmem
  | cons f outer =>
    refine ⟨f, rfl, ?_⟩
    have hkinds : kindsOf (f :: outer) = f.construct.kind :: kindsOf outer := rfl
    rw [hframes, hkinds] at hstack hmem
    generalize f.construct.kind = k, kindsOf outer = ks at hstack hmem
    cases hstack with
    | skipped | classBody | skippedMember => simp at hmem
    | commented hbody => exact .inr (.inr rfl)
    | body hbody =>
      cases hbody with
      | method => exact .inl rfl
      | block hbody => exact .inr (.inl rfl)

/-- **The emissions of a statement make its calls.** -/
lemma calls_emissions (hn : w.Nests) (around : Surroundings) (s : Statement)
    (h : (w.declaredMethod? s).isSome = true ∨ w.context.inMethod = true) :
    emittedCalls (w.emissions around s) = stepCalls around w s := by
  have hinner : s.isComment = false → emittedCalls (w.innerEmissions around s) =
      withinCalls around (w.count s) w.depth s w.frames.head? := by
    intro hcode
    rw [innerEmissions]
    cases hdeclared : w.declaredMethod? s with
    | some d =>
      have hdeclares := declares_of_declaredMethod? hdeclared around
      rw [hdeclares.calls]
      exact d.calls_emissions around (w.atMethod s) s hdeclares.kept
    | none =>
      obtain ⟨f, hf, hkind⟩ := hn.head_of_inMethod (h.resolve_left (by simp [hdeclared]))
      rw [hf]
      unfold withinCalls
      rw [context_count]
      by_cases hclosers : isClosersOnly s.text = true ∧ (!isCommented (some f)) = true
      · rw [if_pos hclosers, if_pos hclosers]
        rfl
      rw [if_neg hclosers, if_neg hclosers]
      obtain ⟨_ | _ | ⟨name, mark⟩ | _ | _, depth⟩ := f
      · simp [Construct.kind] at hkind
      · simp [Construct.kind] at hkind
      · exact calls_bodyEmissions s false w.context
      · exact calls_bodyEmissions s true w.context
      · rfl
  rw [emissions, stepCalls]
  cases hcode : s.isComment with
  | true =>
    rw [if_pos rfl, if_pos rfl]
    split_ifs <;> rfl
  | false =>
    rw [if_neg Bool.false_ne_true, emittedCalls_append, emittedCalls_append, emittedCalls_margin,
      hinner hcode]
    congr 1
    cases (w.count s).within around w.depth s w.frames.head? with
    | ok inside => exact emittedCalls_margin _
    | error fault => rfl

/-! ## Walks in a method -/

/-- The statements up to the one after which no method is open. -/
def methodStatements (around : Surroundings) (w : Walk) : List Statement → List Statement
  | [] => []
  | s :: rest => s :: match w.step around s with
    | .ok w' => if w'.context.inMethod then methodStatements around w' rest else []
    | .error _ => []

/-- What is written for some statements of a method. -/
def walkEmissions (around : Surroundings) (w : Walk) : List Statement → List Emission
  | [] => []
  | s :: rest => w.emissions around s ++ match w.step around s with
    | .ok w' => walkEmissions around w' rest
    | .error _ => []

lemma methodStatements_isPrefix (around : Surroundings) (w : Walk) (statements : List Statement) :
    methodStatements around w statements <+: statements := by
  induction statements generalizing w with
  | nil => exact prefix_rfl
  | cons s rest ih =>
    rw [methodStatements]
    split
    · split_ifs
      · exact cons_prefix_cons.2 ⟨rfl, ih _⟩
      · exact prefix_append [s] rest
    · exact prefix_append [s] rest

lemma calls_walkEmissions (hn : w.Nests) (hmethod : w.context.inMethod = true)
    (statements : List Statement) :
    emittedCalls (walkEmissions around w (methodStatements around w statements)) =
      walkCalls around w (methodStatements around w statements) := by
  induction statements generalizing w with
  | nil => rfl
  | cons s rest ih =>
    rw [methodStatements, walkEmissions, emittedCalls_append,
      calls_emissions hn around s (.inr hmethod)]
    congr 1
    cases hstep : w.step around s with
    | error fault => rfl
    | ok next =>
      dsimp only
      by_cases hnext : next.context.inMethod = true
      · rw [if_pos hnext]
        exact ih (hn.step hstep) hnext
      · rw [if_neg hnext]
        rfl

lemma inMethod_unwindFrames (hnot : w.context.inMethod = false) (recognizer : Option Recognizer)
    (frames : List Frame) : (unwindFrames recognizer w frames).context.inMethod = false := by
  induction frames generalizing w with
  | nil => exact hnot
  | cons f outer ih =>
    rw [unwindFrames]
    split_ifs
    · refine ih ?_
      rw [inMethod_leave, hnot, Bool.and_false]
    · exact hnot

lemma context_unwindFrames (h : (unwindFrames recognizer w frames).context.inMethod = true) :
    (unwindFrames recognizer w frames).context = w.context := by
  induction frames generalizing w with
  | nil => rfl
  | cons f outer ih =>
    rw [unwindFrames] at h ⊢
    split_ifs at h ⊢
    · have hsame : (w.leave recognizer f.construct).context = w.context := by
        cases hconstruct : f.construct with
        | method name mark =>
          rw [hconstruct, inMethod_unwindFrames (by rw [inMethod_leave]; rfl)] at h
          cases h
        | classBody info style => cases style <;> rfl
        | skipped | block | commented => rfl
      exact (ih h).trans hsame
    · rfl

/-- A walk stands in a method whose header has made the given setting. -/
structure InMethod (setting : Context) (w : Walk) : Prop where
  nests : w.Nests
  neat : w.Neat
  inMethod : w.context.inMethod = true
  setting : w.context.setting = setting

/-- **One statement** of a method that does not close it leaves the setting alone. -/
lemma InMethod.step (h : w.InMethod setting) (hlookup : ∀ c ∈ around.lookup.classes, c.Named)
    (hstep : w.step around s = .ok w') (hmethod : w'.context.inMethod = true) : w'.InMethod setting := by
  refine ⟨h.nests.step hstep, h.neat.step hlookup h.nests hstep, hmethod, ?_⟩
  rw [← h.setting]
  rcases step_cases hstep with ⟨hcomment, -⟩ | ⟨-, inside, hinside, rfl⟩
  · rw [(step_comment hcomment hstep).2.2.2]
  obtain ⟨f, hf, hkind⟩ := h.nests.head_of_inMethod h.inMethod
  rw [context_unwindFrames hmethod, ← w.context_count s]
  rcases within_cases hinside with rfl | ⟨hnone, -⟩ | ⟨-, rfl⟩ | ⟨_, _, _, -, -, hbody⟩ |
    ⟨info, style, hframe, -⟩
  · rfl
  · rw [hf] at hnone
    cases hnone
  · rfl
  · exact setting_bodyStatement hbody
  · rw [hf] at hframe
    cases hframe
    simp [Construct.kind] at hkind

lemma within_emissions (hinner : s.isComment = false → ∀ e ∈ w.innerEmissions around s, e.Within setting) :
    ∀ e ∈ w.emissions around s, e.Within setting := by
  rw [emissions]
  split_ifs with hcomment
  · exact forall_mem_singleton.2 (.comment s)
  · exact forall_mem_nil _
  · have hcount : ∀ e ∈ (countCalls w s).map Emission.margin, e.Within setting :=
      .ofMargins fun c hc => isMargin_of_mem_countCalls hc
    refine forall_mem_append.2 ⟨forall_mem_append.2 ⟨hcount, hinner (by simpa using hcomment)⟩, ?_⟩
    split
    · exact .ofMargins fun c hc => isMargin_of_mem_unwindCalls hc
    · exact forall_mem_nil _

/-- **One statement** of a method writes what belongs to it. -/
lemma InMethod.within_emissions (h : w.InMethod setting) (around : Surroundings) (s : Statement) :
    ∀ e ∈ w.emissions around s, e.Within setting := by
  refine Walk.within_emissions fun _ => ?_
  obtain ⟨f, hf, hkind⟩ := h.nests.head_of_inMethod h.inMethod
  have hnone : w.declaredMethod? s = none := by
    refine eq_none_iff_forall_ne_some.2 fun d hd => ?_
    obtain ⟨depth, hframe⟩ := (declares_of_declaredMethod? hd around).frame
    rw [hf] at hframe
    cases hframe
    simp [Construct.kind] at hkind
  have hbody := fun inBlock => within_bodyEmissions h.neat.context s inBlock
  rw [h.setting] at hbody
  rw [innerEmissions, hnone, hf]
  split_ifs
  · exact forall_mem_nil _
  · obtain ⟨_ | _ | ⟨name, mark⟩ | _ | _, depth⟩ := f
    · exact forall_mem_nil _
    · exact forall_mem_nil _
    · exact hbody false
    · exact hbody true
    · exact forall_mem_singleton.2 (.kept s)

/-- **The statements of a method** write what belongs to it. -/
lemma InMethod.within_walkEmissions (h : w.InMethod setting)
    (hlookup : ∀ c ∈ around.lookup.classes, c.Named) (statements : List Statement) :
    ∀ e ∈ walkEmissions around w (methodStatements around w statements), e.Within setting := by
  induction statements generalizing w with
  | nil => exact forall_mem_nil _
  | cons s rest ih =>
    refine forall_mem_append.2 ⟨h.within_emissions around s, ?_⟩
    cases hstep : w.step around s with
    | error fault => exact forall_mem_nil _
    | ok next =>
      dsimp only
      by_cases hnext : next.context.inMethod = true
      · rw [if_pos hnext]
        exact ih (h.step hlookup hstep hnext)
      · rw [if_neg hnext]
        exact forall_mem_nil _

end Walk

/-! ## The part of a method -/

/-- A method of a file: a statement in the body of a class declares it. -/
structure MethodPart (t : Task) where
  before : List Statement
  opening : Statement
  rest : List Statement
  /-- The walk before the method and after the statement that declares it. -/
  outside : Walk
  opened : Walk
  method : DeclaredMethod
  document : t.document.statements = before ++ opening :: rest
  walk : before.foldlM (Walk.step t.surroundings) t.start = .ok outside
  declares : outside.declaredMethod? opening = some method
  opens : outside.step t.surroundings opening = .ok opened

namespace MethodPart

variable {t : Task} (p : MethodPart t)

/-- The statements of the method after its header, with the one that closes it. -/
def body : List Statement :=
  if p.opened.context.inMethod then p.opened.methodStatements t.surroundings p.rest else []

/-- What the method becomes: the calls that its statements make. -/
def calls : List Call := walkCalls t.surroundings p.outside (p.opening :: p.body)

/-- What is written for the method. -/
def emissions : List Emission := p.outside.walkEmissions t.surroundings (p.opening :: p.body)

/-- The walk after the header. -/
def started : Walk := p.method.start t.surroundings (p.outside.atMethod p.opening)

lemma calls_infix : p.calls <:+: t.calls := by
  refine t.walkCalls_infix_calls p.document p.walk (cons_prefix_cons.2 ⟨rfl, ?_⟩)
  rw [body]
  split_ifs
  · exact p.opened.methodStatements_isPrefix t.surroundings p.rest
  · exact nil_prefix

lemma nests_outside : p.outside.Nests := t.start_nests.foldlM p.walk

lemma neat_outside : p.outside.Neat :=
  t.start_neat.foldlM (fun _ hc => named_of_mem_classes hc) t.start_nests p.walk

lemma emissions_eq : p.emissions = p.outside.emissions t.surroundings p.opening ++
    p.opened.walkEmissions t.surroundings p.body := by
  rw [emissions, walkEmissions, p.opens]

/-- **The emissions of a method make its calls.** -/
lemma calls_emissions : emittedCalls p.emissions = p.calls := by
  have hopening := Walk.calls_emissions p.nests_outside t.surroundings p.opening
    (.inl (by rw [p.declares]; rfl))
  rw [emissions_eq, emittedCalls_append, calls, walkCalls, p.opens]
  congr 1
  rw [body]
  split_ifs with hmethod
  · exact calls_walkEmissions (p.nests_outside.step p.opens) hmethod p.rest
  · rfl

lemma inMethod_opened (hmethod : p.opened.context.inMethod = true) :
    p.opened.InMethod p.started.context.setting := by
  have hlookup : ∀ c ∈ t.surroundings.lookup.classes, c.Named := fun _ hc => named_of_mem_classes hc
  refine ⟨p.nests_outside.step p.opens, p.neat_outside.step hlookup p.nests_outside p.opens, hmethod, ?_⟩
  have hdeclares := declares_of_declaredMethod? p.declares t.surroundings
  obtain ⟨inside, hinside, hopened⟩ := step_code hdeclares.code p.opens
  rw [hopened] at hmethod ⊢
  rw [context_unwindFrames hmethod]
  rw [hdeclares.within] at hinside
  rcases method_cases hinside with ⟨hskipped, -⟩ | ⟨-, -, rfl⟩ | ⟨-, -, after, -, rfl⟩
  · exact absurd hskipped hdeclares.kept
  · rfl
  · rw [inMethod_unwindFrames (inMethod_finishMethod ..)] at hmethod
    cases hmethod

/-- **What is written for a method** belongs to it: all its texts are converted in one setting. -/
lemma within_emissions : ∀ e ∈ p.emissions, e.Within p.started.context.setting := by
  have hlookup : ∀ c ∈ t.surroundings.lookup.classes, c.Named := fun _ hc => named_of_mem_classes hc
  rw [emissions_eq]
  refine forall_mem_append.2 ⟨Walk.within_emissions fun _ => ?_, ?_⟩
  · obtain ⟨depth, hframe⟩ := (declares_of_declaredMethod? p.declares t.surroundings).frame
    have hinfo := p.neat_outside.head_named p.nests_outside _ _ _ hframe
    have hneat : (p.outside.atMethod p.opening).context.Neat := by
      have hcount := p.neat_outside.context
      rwa [← p.outside.context_count p.opening] at hcount
    rw [innerEmissions, p.declares]
    exact p.method.within_emissions t.surroundings hneat hinfo p.opening.line
  · rw [body]
    split_ifs with hmethod
    · exact (p.inMethod_opened hmethod).within_walkEmissions hlookup p.rest
    · exact forall_mem_nil _

lemma refs_of_steps (hsteps : p.method.style = .steps) :
    p.started.context.setting.pageRef = "page".toList ∧ p.started.context.setting.selfRef = none := by
  have hheader : ∀ sig step ctx, (methodHeader t.surroundings.lookup .steps sig step ctx).1.pageRef =
      "page".toList ∧ (methodHeader t.surroundings.lookup .steps sig step ctx).1.selfRef = none := by
    intro sig step ctx
    cases step with
    | some step => exact ⟨rfl, rfl⟩
    | none => exact ⟨rfl, rfl⟩
  rw [started, DeclaredMethod.start, setting_startMethod, hsteps]
  obtain ⟨hpage, hself⟩ := hheader p.method.sig (stepAnnotation? p.method.annotations)
    ((p.outside.atMethod p.opening).onSheet (·.blank)).context
  refine ⟨hpage, ?_⟩
  have hfilter : ∀ o : Option Text, o = none → o.filter (!·.isEmpty) = none := by
    rintro _ rfl
    rfl
  exact hfilter _ hself

end MethodPart

/-! ## Finding a method -/

/-- The method that a statement declares, given how many come before it, and what is written for
it. -/
def Task.methodAt? (t : Task) (around : Surroundings) (n : Nat) : Option (DeclaredMethod × List Emission) := do
  let outside ← ((t.document.statements.take n).foldlM (Walk.step around) t.start).toOption
  let opening ← t.document.statements[n]?
  let method ← outside.declaredMethod? opening
  let opened ← (outside.step around opening).toOption
  let body := if opened.context.inMethod
    then opened.methodStatements around (t.document.statements.drop (n + 1)) else []
  some (method, outside.walkEmissions around (opening :: body))

lemma Task.exists_methodPart {t : Task} {n : Nat} {P : DeclaredMethod × List Emission → Prop} [DecidablePred P]
    (h : (t.methodAt? t.surroundings n).any (fun found => decide (P found)) = true) :
    ∃ p : MethodPart t, P (p.method, p.emissions) := by
  have hok : ∀ {x : Except Fault Walk} {w : Walk}, x.toOption = some w → x = .ok w := by
    rintro (_ | w') w hw
    · cases hw
    · cases hw
      rfl
  cases hfound : t.methodAt? t.surroundings n with
  | none =>
    rw [hfound] at h
    cases h
  | some found =>
    rw [hfound] at h
    obtain ⟨outside, houtside, hfound⟩ := bind_eq_some_iff.1 hfound
    obtain ⟨opening, hopening, hfound⟩ := bind_eq_some_iff.1 hfound
    obtain ⟨method, hmethod, hfound⟩ := bind_eq_some_iff.1 hfound
    obtain ⟨opened, hopened, hfound⟩ := bind_eq_some_iff.1 hfound
    cases hfound
    obtain ⟨hlength, hget⟩ := List.getElem?_eq_some_iff.1 hopening
    have hdocument : t.document.statements =
        t.document.statements.take n ++ opening :: t.document.statements.drop (n + 1) := by
      rw [← hget, cons_getElem_drop_succ, take_append_drop]
    exact ⟨⟨_, opening, _, outside, opened, method, hdocument, hok houtside, hmethod,
      hok hopened⟩, of_decide_eq_true h⟩

end Restage.Conversion
