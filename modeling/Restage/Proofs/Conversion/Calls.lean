import Restage.Conversion.File
import Restage.Proofs.Java.OneLine
import Restage.Proofs.Runs
import Restage.Proofs.TypeScript.SheetCalls

/-!
# The calls of a walk

A walk hands its sheet from function to function, and what a statement did to it can only be told
from the sheet that comes out.  For statements about the output this is the wrong side: what matters
there is which calls were made, in which order and with which lines.  This module names them.

`stepCalls` lists the calls that a statement makes on the sheet, with one definition for each
function of the walk that writes something, and `sheet_step` says that these calls are all that
happens to the sheet.  `Task.calls` are the calls of a whole file, and `run_code` says that its code
is what they leave on an empty sheet.  `Proofs/Conversion/Nesting.lean` and
`Proofs/Conversion/Balance.lean` read the calls.
-/

namespace Restage.Conversion

open Text Java TypeScript List Sheet

variable {c : Call} (around : Surroundings) (w : Walk) (s : Statement)

/-! ## Classes -/

/-- The calls that write the header and the constructor of a class. -/
def classCalls (name : Text) (base : Option Text) (fields : List Text) (parameter : Text)
    (constructor : List Text) : List Call :=
  let parent : Text := (base.map fun (b : Text) => " extends " ++ b).getD []
  .openScope ("export class " ++ name ++ parent ++ " \x7b") "\x7d" ::
    (if fields.isEmpty then [] else [.emit fields, .blank]) ++
    [.openScope ("constructor(" ++ parameter ++ ") \x7b") "\x7d", .emit constructor, .closeScope]

/-- The calls that open an exception class. -/
def exceptionCalls (l : Lookup) (info : ClassInfo) : List Call :=
  let parent := (l.parent? info).filter fun p => (l.roles p).isException
  classCalls info.name (some ((parent.map (·.name)).getD "Error")) [] "message?: string"
    ["super(message);", "this.name = '" ++ info.name ++ "';"]

/-- The calls that open a class around a page. -/
def pageCalls (l : Lookup) (info : ClassInfo) : List Call :=
  match (l.parent? info).filter fun p => l.isPageType p.name with
  | some p => classCalls info.name (some p.name) [] "page: Page" ["super(page);"]
  | none => classCalls info.name none ["readonly page: Page;"] "page: Page" ["this.page = page;"]

/-- The calls that open a class of the given style. -/
def styleCalls (l : Lookup) (info : ClassInfo) (bound : Bool) : Style → List Call
  | .exception => exceptionCalls l info
  | .steps => if bound then [] else [.emit [stepsBinding], .blank]
  | .page => pageCalls l info

/-- The calls for a class declaration. -/
def openClassCalls (l : Lookup) (h : ClassHeader) (bound : Bool) : List Call :=
  if h.kind ≠ "class".toList then []
  else
    let info := (l.own? h.name).getD { name := h.name }
    let style := Style.ofRoles (l.roles info)
    styleCalls l info bound style ++
      if startsWith "\x7d" (trim h.rest) ∧ style ≠ .steps then [.closeScope] else []

/-- The calls for a statement outside of all classes. -/
def topLevelCalls (l : Lookup) (s : Statement) (bound : Bool) : List Call :=
  let text := (splitAnnotations s.text).2
  if (package? s.text).isSome ∨ (import? s.text).isSome ∨ text.isEmpty then []
  else match classHeader? (stripGenerics text) with
    | some h => openClassCalls l h bound
    | none => []

/-! ## Fields -/

/-- The calls that write the accessor of an element. -/
def accessorCalls (name : Text) (d : Locator.Descriptor) : List Call :=
  .blank :: ((d.description.filter (!·.isEmpty)).toList.map .comment) ++
    [.openScope ("async " ++ name ++ "(): Promise<Locator> \x7b") "\x7d",
      .emit ["return this.page." ++ d.call [] ++ ";"], .closeScope]

def fieldCalls (l : Lookup) (style : Style) (f : FieldHeader) (annotations : List Text) :
    List Call :=
  let info := Analysis.fieldInfo f annotations
  if l.isElementField info then
    if style = .steps then []
    else accessorCalls info.name
      ((fieldLocator? info).getD (Locator.Descriptor.unknown info.name))
  else
    let value := trim (info.initial.getD [])
    if isLiteral value then [.emit [propertyLine style f info value]] else []

/-! ## Methods -/

/-- The pattern that a recognizer is most confident of, if its reply can be listed and has one. -/
def best? (recognizer : Option Recognizer) (asked : List (List Action)) (actions : List Action) :
    Option Pattern :=
  (consult recognizer asked actions).1.toOption.bind List.head?

/-- The call that notes the best pattern of a method at its mark. -/
def noteCalls (recognizer : Option Recognizer) (w : Walk) (mark : Nat) : List Call :=
  ((best? recognizer w.asked w.context.actions).map fun best =>
    .insert mark [Walk.patternNote best]).toList

/-- The calls that write the header of a method and the page objects of its body. -/
def startCalls (l : Lookup) (info : ClassInfo) (style : Style) (sig : Signature)
    (annotations : List Text) (ctx : Context) : List Call :=
  let header := (methodHeader l style sig (stepAnnotation? annotations) ctx).1
  .openScope header.line header.closer ::
    if style = .steps then (namedPages l info sig.name).map fun f =>
      .emit ["const " ++ f.name ++ " = new " ++ f.elementType ++ "(page);"]
    else []

/-- The call that writes the counterpart of a statement. -/
def convertCalls (line : Nat) (text : Text) (ctx : Context) : List Call :=
  match statement line text ctx with
  | .ok (lines, _) => [.emit lines]
  | .error _ => []

/-- The calls for a method that stands on one line, after its header.  There are more of them only
if the body can be converted. -/
def inlineCalls (recognizer : Option Recognizer) (w : Walk) (line : Nat) (body : Text) (mark : Nat) :
    List Call :=
  match if body.isEmpty then .ok w else w.convert line body with
  | .ok after =>
    (if body.isEmpty then [] else convertCalls line body w.context) ++
      .closeScope :: noteCalls recognizer after mark
  | .error _ => []

/-- The calls for a method or constructor. -/
def methodCalls (around : Surroundings) (w : Walk) (s : Statement) (info : ClassInfo) (style : Style)
    (sig : Signature) (annotations : List Text) (opened : Bool) : List Call :=
  let ending := trim sig.ending
  if sig.isConstructor ∨ ending = ";".toList then []
  else
    let w := w.onSheet (·.blank)
    .blank :: startCalls around.lookup info style sig annotations w.context ++
      if opened then []
      else inlineCalls around.recognizer (w.startMethod around.lookup info style sig annotations)
        s.line (Walk.inlineBody ending) w.sheet.mark

/-- The calls for a declaration in the body of a class. -/
def declarationCalls (around : Surroundings) (w : Walk) (s : Statement) (info : ClassInfo)
    (style : Style) (text : Text) (annotations : List Text) (opened : Bool) : List Call :=
  if style = .exception ∨ (classHeader? (stripGenerics text)).isSome then []
  else match signature? (some info.name) text with
    | some sig => methodCalls around w s info style sig annotations opened
    | none =>
      match field? text with
      | some f => fieldCalls around.lookup style f annotations
      | none => []

/-- The calls for a statement in the body of a class. -/
def memberCalls (around : Surroundings) (w : Walk) (s : Statement) (info : ClassInfo) (style : Style)
    (bodyDepth : Nat) : List Call :=
  let (found, text) := splitAnnotations s.text
  if text.isEmpty then []
  else declarationCalls around { w with pending := [] } s info style text (w.pending ++ found)
    (bodyDepth < w.depth)

namespace Walk

/-- A choice by what a statement in the body of a class is: annotations that wait for a declaration,
something that is left out for a reason, a method or a field. -/
def memberCase {α : Type} (s : Statement) (info : ClassInfo) (style : Style) (waiting : α)
    (skipped : Text → α) (method : Signature → α) (field : FieldHeader → α) : α :=
  let text := (splitAnnotations s.text).2
  if text.isEmpty then waiting
  else if style = .exception then skipped "exception class member"
  else if (classHeader? (stripGenerics text)).isSome then skipped "nested class"
  else match signature? (some info.name) text with
    | some sig => method sig
    | none =>
      match field? text with
      | some f => field f
      | none => skipped "no pattern match"

lemma member_eq (w : Walk) (around : Surroundings) (s : Statement) (info : ClassInfo) (style : Style)
    (bodyDepth : Nat) :
    let annotations := w.pending ++ (splitAnnotations s.text).1
    let cleared := { w with pending := [] }
    w.member around s info style bodyDepth = memberCase s info style
      (.ok { w with pending := annotations }) (fun reason => .ok (cleared.skip s reason (bodyDepth < w.depth)))
      (cleared.method around s info style · annotations (bodyDepth < w.depth))
      (fun f => .ok (cleared.field around.lookup s style f annotations)) := rfl

lemma memberCalls_eq (around : Surroundings) (w : Walk) (s : Statement) (info : ClassInfo) (style : Style)
    (bodyDepth : Nat) :
    let annotations := w.pending ++ (splitAnnotations s.text).1
    memberCalls around w s info style bodyDepth = memberCase s info style [] (fun _ => [])
      (methodCalls around { w with pending := [] } s info style · annotations (bodyDepth < w.depth))
      (fieldCalls around.lookup style · annotations) := by
  simp only [memberCalls, declarationCalls, ite_or]
  rfl

/-- What a statement in the body of a class is, and what every choice comes to then. -/
inductive MemberPlace (s : Statement) (info : ClassInfo) (style : Style) : Prop
  | waiting (hcase : ∀ {α : Type} (x : α) k m g, memberCase s info style x k m g = x)
  | skipped (reason : Text)
      (hreason : reason ∈ (["exception class member", "nested class", "no pattern match"] : List Text))
      (hcase : ∀ {α : Type} (x : α) k m g, memberCase s info style x k m g = k reason)
  | method (sig : Signature) (hstyle : style ≠ .exception)
      (hsig : signature? (some info.name) (splitAnnotations s.text).2 = some sig)
      (hcase : ∀ {α : Type} (x : α) k m g, memberCase s info style x k m g = m sig)
  | field (f : FieldHeader) (hfield : field? (splitAnnotations s.text).2 = some f)
      (hcase : ∀ {α : Type} (x : α) k m g, memberCase s info style x k m g = g f)

lemma memberPlace (s : Statement) (info : ClassInfo) (style : Style) : MemberPlace s info style := by
  by_cases htext : (splitAnnotations s.text).2.isEmpty = true
  · exact .waiting fun _ _ _ _ => if_pos htext
  by_cases hexception : style = .exception
  · exact .skipped _ mem_cons_self fun _ _ _ _ => by simp [memberCase, *]
  by_cases hnested : (classHeader? (stripGenerics (splitAnnotations s.text).2)).isSome = true
  · exact .skipped "nested class" (by simp) fun _ _ _ _ => by simp [memberCase, *]
  cases hsig : signature? (some info.name) (splitAnnotations s.text).2 with
  | some sig => exact .method sig hexception hsig fun _ _ _ _ => by simp [memberCase, *]
  | none =>
    cases hfield : field? (splitAnnotations s.text).2 with
    | some f => exact .field f hfield fun _ _ _ _ => by simp [memberCase, *]
    | none => exact .skipped "no pattern match" (by simp) fun _ _ _ _ => by simp [memberCase, *]

end Walk

/-! ## Bodies of methods -/

/-- The call that keeps a statement as a comment. -/
def todoCalls (s : Statement) : List Call := [.emit ["// TODO: " ++ s.text]]

/-- The calls for a statement that starts by closing a brace. -/
def closingCalls (s : Statement) (inBlock : Bool) (rest : Text) (ctx : Context) : List Call :=
  if rest.isEmpty ∨ rest = ";".toList then []
  else match if inBlock ∧ s.opens ≠ 0 then controlHeader? ctx rest else none with
    | some (header, _) => [.chain ("\x7d " ++ header)]
    | none => todoCalls s

/-- The calls for a statement that opens a block. -/
def openingCalls (s : Statement) (ctx : Context) : List Call :=
  match controlHeader? ctx s.text with
  | some (header, _) => [.openScope header "\x7d"]
  | none => todoCalls s

/-- The calls for a statement in the body of a method. -/
def bodyCalls (s : Statement) (inBlock : Bool) (ctx : Context) : List Call :=
  match s.text with
  | '\x7d' :: r => closingCalls s inBlock (trim r) ctx
  | text =>
    if s.closes < s.opens then openingCalls s ctx
    else match if s.opens < s.closes then dropFinal? '\x7d' text else none with
      | some inner => if allBlank inner then [] else convertCalls s.line (trim inner) ctx
      | none => convertCalls s.line text ctx

namespace Walk

/-- The part of a statement in a body that is converted. -/
def bodyPart? (s : Statement) : Option Text :=
  if s.text.head? = some '\x7d' ∨ s.closes < s.opens then none
  else match if s.opens < s.closes then dropFinal? '\x7d' s.text else none with
    | some inner => if allBlank inner then none else some (trim inner)
    | none => some s.text

/-- What is done with a statement in a body: it closes a brace, opens one, or has a part that is
converted, if it has more than a brace. -/
inductive BodyPlace (s : Statement) : Prop
  | closing (r : Text) (htext : s.text = '\x7d' :: r) (hpart : bodyPart? s = none)
      (hwalk : ∀ (w : Walk) b, w.bodyStatement s b = .ok (w.closing s b (trim r)))
      (hcalls : ∀ b ctx, bodyCalls s b ctx = closingCalls s b (trim r) ctx)
  | opening (hhead : s.text.head? ≠ some '\x7d') (hopens : s.closes < s.opens)
      (hpart : bodyPart? s = none) (hwalk : ∀ (w : Walk) b, w.bodyStatement s b = .ok (w.opening s))
      (hcalls : ∀ b ctx, bodyCalls s b ctx = openingCalls s ctx)
  | other (hhead : s.text.head? ≠ some '\x7d') (hopens : ¬s.closes < s.opens)
      (hpart : ∀ part ∈ bodyPart? s, part ⊆ s.text)
      (hwalk : ∀ (w : Walk) b, w.bodyStatement s b = (bodyPart? s).elim (.ok w) (w.convert s.line))
      (hcalls : ∀ b ctx, bodyCalls s b ctx = (bodyPart? s).elim [] (convertCalls s.line · ctx))

lemma bodyPlace (s : Statement) : BodyPlace s := by
  by_cases hhead : s.text.head? = some '\x7d'
  · obtain ⟨r, hr⟩ := head?_eq_some_iff.1 hhead
    exact .closing r hr (if_pos (.inl hhead)) (fun w b => by simp only [bodyStatement, hr])
      fun b ctx => by simp only [bodyCalls, hr]
  have hother : ∀ r, s.text ≠ '\x7d' :: r := fun r hr => hhead (by rw [hr, head?_cons])
  by_cases hopens : s.closes < s.opens
  · refine .opening hhead hopens (if_pos (.inr hopens)) (fun w b => ?_) fun b ctx => ?_
    · simp [bodyStatement, hopens]
    · simp [bodyCalls, hopens]
  have hpart : bodyPart? s = _ := if_neg (not_or.2 ⟨hhead, hopens⟩)
  refine .other hhead hopens ?_ (fun w b => ?_) fun b ctx => ?_ <;> rw [hpart]
  · cases hinner : if s.opens < s.closes then dropFinal? '\x7d' s.text else none with
    | none =>
      rintro _ ⟨⟩
      exact Subset.refl _
    | some inner =>
      intro part hmem
      rw [dropFinal?] at hinner
      split_ifs at hinner
      cases hinner
      dsimp only at hmem
      split_ifs at hmem
      · cases hmem
      · cases hmem
        exact Subset.trans (trim_subset _) (dropLast_sublist _).subset
  · simp only [bodyStatement, if_neg hopens]
    cases if s.opens < s.closes then dropFinal? '\x7d' s.text else none with
    | none => rfl
    | some inner => dsimp only; split_ifs <;> rfl
  · simp only [bodyCalls, if_neg hopens]
    cases if s.opens < s.closes then dropFinal? '\x7d' s.text else none with
    | none => rfl
    | some inner => dsimp only; split_ifs <;> rfl

end Walk

/-! ## Statements -/

def leaveCalls (recognizer : Option Recognizer) (w : Walk) (c : Construct) : List Call :=
  (if c.hasScope then [.closeScope] else []) ++
    match c with
    | .method _ mark => noteCalls recognizer w mark
    | .classBody _ _ => [.blank]
    | _ => []

/-- The calls for leaving the constructs that are closed. -/
def unwindCalls (recognizer : Option Recognizer) (w : Walk) : List Frame → List Call
  | [] => []
  | f :: outer =>
    if w.depth < f.depth then
      leaveCalls recognizer w f.construct ++
        unwindCalls recognizer (w.leave recognizer f.construct) outer
    else []

/-- The call for a brace that closes nothing in the source. -/
def countCalls (w : Walk) (s : Statement) : List Call :=
  if w.depth + s.opens < s.closes then [.closeScope] else []

/-- The calls for a statement, given the construct that it stands in. -/
def withinCalls (around : Surroundings) (w : Walk) (before : Nat) (s : Statement)
    (frame : Option Frame) : List Call :=
  if Walk.isClosersOnly s.text ∧ !Walk.isCommented frame then []
  else match frame with
    | none => topLevelCalls around.lookup s w.bound
    | some ⟨.skipped, _⟩ => []
    | some ⟨.commented, _⟩ => todoCalls s
    | some ⟨.method _ _, _⟩ => bodyCalls s false w.context
    | some ⟨.block, _⟩ => bodyCalls s true w.context
    | some ⟨.classBody info style, depth⟩ =>
      if before = depth then memberCalls around w s info style depth else []

/-- The calls that a statement makes on the sheet, in order; the frames are left last, and only if
the statement can be converted. -/
def stepCalls (around : Surroundings) (w : Walk) (s : Statement) : List Call :=
  if s.isComment then
    if Walk.keepsComments w.frames.head? then [.emit (s.rawLines.map Walk.commentLine)] else []
  else
    countCalls w s ++ withinCalls around (w.count s) w.depth s w.frames.head? ++
      match (w.count s).within around w.depth s w.frames.head? with
      | .ok w' => unwindCalls around.recognizer w' w'.frames
      | .error _ => []

/-- The calls of a walk over some statements. -/
def walkCalls (around : Surroundings) (w : Walk) : List Statement → List Call
  | [] => []
  | s :: rest =>
    stepCalls around w s ++
      match w.step around s with
      | .ok w' => walkCalls around w' rest
      | .error _ => []

/-- The calls of the conversion of a file. -/
def Task.calls (t : Task) : List Call :=
  walkCalls t.surroundings t.start t.document.statements ++
    match t.walk with
    | .ok w => w.context.imports.map .addImport
    | .error _ => []

/-! ## Plain calls -/

/-- A call that adds lines at the end and opens no scope that is not closed by a brace of its own.
Chains, insertions and imports are not plain. -/
def plain : Call → Bool
  | .openScope _ closer => closer == ("\x7d" : Text) || closer == ("\x7d);" : Text)
  | .emit _ | .comment _ | .blank | .closeScope => true
  | .chain _ | .insert _ _ | .addImport _ => false

lemma plain_classCalls (name : Text) (base : Option Text) (fields : List Text) (parameter : Text)
    (constructor : List Text) :
    (classCalls name base fields parameter constructor).all plain = true := by
  cases fields <;> rfl

variable (l : Lookup)

lemma plain_topLevelCalls (s : Statement) (bound : Bool) : (topLevelCalls l s bound).all plain = true := by
  have hstyle : ∀ info style, (styleCalls l info bound style).all plain = true := by
    intro info style
    cases style with
    | exception => exact plain_classCalls ..
    | steps => cases bound <;> rfl
    | page =>
      simp only [styleCalls, pageCalls]
      split <;> exact plain_classCalls ..
  simp only [topLevelCalls]
  split_ifs
  · rfl
  · split
    · simp only [openClassCalls]
      split_ifs
      · rfl
      · rw [all_append, hstyle]
        rfl
      · rw [all_append, hstyle]
        rfl
    · rfl

lemma plain_fieldCalls (style : Style) (f : FieldHeader) (annotations : List Text) :
    (fieldCalls l style f annotations).all plain = true := by
  have haccessor : ∀ name d, (accessorCalls name d).all plain = true := by
    intro name d
    unfold accessorCalls
    cases d.description.filter (!·.isEmpty) <;> rfl
  simp only [fieldCalls]
  split_ifs
  · rfl
  · exact haccessor ..
  · rfl
  · rfl

lemma methodHeader_closer (style : Style) (sig : Signature) (step : Option Step) (ctx : Context)
    (line : Text) : plain (.openScope line (methodHeader l style sig step ctx).1.closer) = true := by
  unfold methodHeader
  dsimp only
  split
  · rfl
  · rcases typeReference l (sig.result.getD []) ctx with ⟨result, ctx⟩
    split_ifs <;> rfl

lemma plain_startCalls (info : ClassInfo) (style : Style) (sig : Signature) (annotations : List Text)
    (ctx : Context) : (startCalls l info style sig annotations ctx).all plain = true := by
  simp only [startCalls, all_cons, methodHeader_closer]
  split_ifs
  · rw [all_map]
    exact all_eq_true.2 fun _ _ => rfl
  · rfl

lemma plain_convertCalls (line : Nat) (text : Text) (ctx : Context) :
    (convertCalls line text ctx).all plain = true := by
  rw [convertCalls]
  split <;> rfl

/-- The calls in the body of a method are plain, unless a block is continued. -/
lemma plain_bodyCalls (inBlock : Bool) (ctx : Context) :
    (bodyCalls s inBlock ctx).all plain = true ∨
      inBlock = true ∧ ∃ line, bodyCalls s inBlock ctx = [.chain line] := by
  cases Walk.bodyPlace s with
  | closing r _ _ _ hcalls =>
    rw [hcalls, closingCalls]
    split_ifs with hrest hheader
    · exact .inl rfl
    · cases controlHeader? ctx _ with
      | none => exact .inl rfl
      | some found => exact .inr ⟨hheader.1, _, rfl⟩
    · exact .inl rfl
  | opening _ _ _ _ hcalls =>
    rw [hcalls, openingCalls]
    split <;> exact .inl rfl
  | other _ _ _ _ hcalls =>
    rw [hcalls]
    cases Walk.bodyPart? s with
    | none => exact .inl rfl
    | some part => exact .inl (plain_convertCalls ..)

lemma plain_inlineCalls (recognizer : Option Recognizer) (w : Walk) (line : Nat) (body : Text)
    (mark : Nat) :
    inlineCalls recognizer w line body mark = [] ∨ ∃ calls after, calls.all plain = true ∧
      inlineCalls recognizer w line body mark = calls ++ noteCalls recognizer after mark := by
  rw [inlineCalls]
  split
  · rename_i after _
    refine .inr ⟨(if body.isEmpty then [] else convertCalls line body w.context) ++ [.closeScope],
      after, ?_, ?_⟩
    · rw [all_append]
      split_ifs
      · rfl
      · rw [plain_convertCalls]
        rfl
    · rw [append_assoc]
      rfl
  · exact .inl rfl

/-- The calls for a method are plain, but for the note of a method that stands on one line.  It goes
to where the header of the method was written, right after the empty line before it. -/
lemma plain_methodCalls (info : ClassInfo) (style : Style) (sig : Signature)
    (annotations : List Text) (opened : Bool) :
    (methodCalls around w s info style sig annotations opened).all plain = true ∨
      ∃ calls after, calls.all plain = true ∧
        methodCalls around w s info style sig annotations opened =
          .blank :: calls ++ noteCalls around.recognizer after w.sheet.blank.mark := by
  simp only [methodCalls]
  by_cases hskipped : sig.isConstructor = true ∨ trim sig.ending = ";".toList
  · rw [if_pos hskipped]
    exact .inl rfl
  rw [if_neg hskipped]
  have hstart := plain_startCalls around.lookup info style sig annotations (w.onSheet (·.blank)).context
  cases opened with
  | true =>
    left
    rw [if_pos rfl, append_nil, all_cons, hstart]
    rfl
  | false =>
    rw [if_neg Bool.false_ne_true]
    rcases plain_inlineCalls around.recognizer ((w.onSheet (·.blank)).startMethod around.lookup info
      style sig annotations) s.line (Walk.inlineBody (trim sig.ending))
      (w.onSheet (·.blank)).sheet.mark with hnone | ⟨calls, after, hcalls, hnote⟩
    · left
      rw [hnone, append_nil, all_cons, hstart]
      rfl
    · right
      refine ⟨startCalls around.lookup info style sig annotations (w.onSheet (·.blank)).context ++
        calls, after, ?_, ?_⟩
      · rw [all_append, hstart, hcalls]
        rfl
      · rw [hnote, cons_append, cons_append, append_assoc]
        rfl

lemma plain_memberCalls (info : ClassInfo) (style : Style) (bodyDepth : Nat) :
    (memberCalls around w s info style bodyDepth).all plain = true ∨
      ∃ calls after, calls.all plain = true ∧
        memberCalls around w s info style bodyDepth =
          .blank :: calls ++ noteCalls around.recognizer after w.sheet.blank.mark := by
  rw [Walk.memberCalls_eq]
  cases Walk.memberPlace s info style with
  | waiting hcase | skipped _ _ hcase =>
    rw [hcase]
    exact .inl rfl
  | method sig _ _ hcase =>
    rw [hcase]
    exact plain_methodCalls around { w with pending := [] } s info style sig _ _
  | field f _ hcase =>
    rw [hcase]
    exact .inl (plain_fieldCalls ..)

variable {recognizer : Option Recognizer} {w w' : Walk} {around : Surroundings} {s : Statement}
  {info : ClassInfo} {style : Style} {sig : Signature} {annotations : List Text} {opened : Bool}

lemma mem_noteCalls {mark : Nat} (h : c ∈ noteCalls recognizer w mark) :
    ∃ lines, c = .insert mark lines := by
  rw [noteCalls] at h
  cases hp : best? recognizer w.asked w.context.actions with
  | none => rw [hp] at h; cases h
  | some best =>
    rw [hp] at h
    exact ⟨_, mem_singleton.1 h⟩

lemma mem_unwindCalls {frames : List Frame} (h : c ∈ unwindCalls recognizer w frames) :
    c = .closeScope ∨ c = .blank ∨ ∃ left mark, c ∈ noteCalls recognizer left mark := by
  induction frames generalizing w with
  | nil => cases h
  | cons f outer ih =>
    rw [unwindCalls] at h
    split_ifs at h
    · rcases mem_append.1 h with h | h
      · unfold leaveCalls at h
        rcases mem_append.1 h with h | h
        · split_ifs at h
          · exact .inl (mem_singleton.1 h)
          · cases h
        · split at h
          · exact .inr (.inr ⟨_, _, h⟩)
          · exact .inr (.inl (mem_singleton.1 h))
          · cases h
      · exact ih h
    · cases h

lemma plain_countCalls (w : Walk) (s : Statement) : (countCalls w s).all plain = true := by
  rw [countCalls]
  split_ifs <;> rfl

/-- The calls for a statement are plain, but for two of them: in a block, the one that continues it,
and in a class, the note of a method that stands on one line. -/
lemma withinCalls_cases (around : Surroundings) (w : Walk) (before : Nat) (s : Statement)
    (frame : Option Frame) :
    (withinCalls around w before s frame).all plain = true ∨
    (∃ depth line, frame = some ⟨.block, depth⟩ ∧ withinCalls around w before s frame = [.chain line]) ∨
    (∃ info style depth calls after, frame = some ⟨.classBody info style, depth⟩ ∧
      calls.all plain = true ∧ withinCalls around w before s frame =
        .blank :: calls ++ noteCalls around.recognizer after w.sheet.blank.mark) := by
  unfold withinCalls
  split_ifs
  · exact .inl rfl
  rcases frame with _ | ⟨_ | ⟨info, style⟩ | ⟨name, mark⟩ | _ | _, depth⟩
  · exact .inl (plain_topLevelCalls ..)
  · exact .inl rfl
  · dsimp only
    split_ifs
    · rcases plain_memberCalls around w s info style depth with hplain | ⟨calls, after, hcalls, hnote⟩
      · exact .inl hplain
      · exact .inr (.inr ⟨info, style, depth, calls, after, rfl, hcalls, hnote⟩)
    · exact .inl rfl
  · rcases plain_bodyCalls s false w.context with hplain | ⟨hblock, -⟩
    · exact .inl hplain
    · exact absurd hblock Bool.false_ne_true
  · rcases plain_bodyCalls s true w.context with hplain | ⟨-, line, hline⟩
    · exact .inl hplain
    · exact .inr (.inl ⟨depth, line, rfl, hline⟩)
  · exact .inl rfl

/-! ## The sheet after the calls -/

lemma exists_of_any_toOption {α : Type} {x : Except Fault α} {P : α → Prop} [DecidablePred P]
    (h : x.toOption.any (fun a => decide (P a)) = true) : ∃ a, x = .ok a ∧ P a := by
  cases x with
  | error fault => cases h
  | ok a => exact ⟨a, rfl, of_decide_eq_true h⟩

namespace Walk

variable (w : Walk) (l : Lookup)

@[simp] lemma sheet_onSheet (f : Sheet → Sheet) : (w.onSheet f).sheet = f w.sheet := rfl

@[simp] lemma sheet_diagnose (s : Statement) (reason : Text) : (w.diagnose s reason).sheet = w.sheet :=
  rfl

@[simp] lemma sheet_skip (s : Statement) (reason : Text) (opened : Bool) :
    (w.skip s reason opened).sheet = w.sheet := by
  rw [skip]
  split_ifs <;> rfl

lemma sheet_writeClass (name : Text) (base : Option Text) (fields : List Text) (parameter : Text)
    (constructor : List Text) :
    (w.writeClass name base fields parameter constructor).sheet =
      w.sheet.performAll (classCalls name base fields parameter constructor) := by
  cases fields <;> rfl

lemma sheet_openException (info : ClassInfo) :
    (w.openException l info).sheet = w.sheet.performAll (exceptionCalls l info) := by
  rw [openException]
  split <;> rfl

lemma sheet_openPage (info : ClassInfo) :
    (w.openPage l info).sheet = w.sheet.performAll (pageCalls l info) := by
  unfold openPage pageCalls
  generalize (l.parent? info).filter _ = parent
  cases parent <;> exact sheet_writeClass ..

lemma sheet_openSteps (info : ClassInfo) :
    w.openSteps.sheet = w.sheet.performAll (styleCalls l info w.bound .steps) := by
  rw [openSteps, styleCalls]
  split_ifs <;> rfl

def openStyle (l : Lookup) (info : ClassInfo) : Style → Walk
  | .exception => w.openException l info
  | .steps => w.openSteps
  | .page => w.openPage l info

lemma sheet_openStyle (info : ClassInfo) (style : Style) :
    (w.openStyle l info style).sheet = w.sheet.performAll (styleCalls l info w.bound style) := by
  cases style with
  | exception => exact w.sheet_openException l info
  | steps => exact w.sheet_openSteps l info
  | page => exact w.sheet_openPage l info

lemma openClass_eq (s : Statement) (h : ClassHeader) (hkind : h.kind = "class".toList) :
    ∃ info style, info = (l.own? h.name).getD { name := h.name } ∧ style = Style.ofRoles (l.roles info) ∧
      openClassCalls l h w.bound = styleCalls l info w.bound style ++
        (if startsWith "\x7d" (trim h.rest) ∧ style ≠ .steps then [.closeScope] else []) ∧
      w.openClass l s h =
        let w := (w.onContext (classContext l info style)).openStyle l info style
        if startsWith "\x7d" (trim h.rest) then
          if style = .steps then w else w.onSheet (·.closeScope)
        else w.enter (.classBody info style) := by
  refine ⟨_, _, rfl, rfl, ?_, ?_⟩
  · rw [openClassCalls, if_neg (by simp [hkind])]
  · rw [openClass, if_neg (by simp [hkind])]
    rfl

lemma sheet_openClass (s : Statement) (h : ClassHeader) :
    (w.openClass l s h).sheet = w.sheet.performAll (openClassCalls l h w.bound) := by
  by_cases hkind : h.kind = "class".toList
  · obtain ⟨info, style, -, -, hcalls, hopen⟩ := w.openClass_eq l s h hkind
    have hstyle := (w.onContext (classContext l info style)).sheet_openStyle l info style
    rw [hopen, hcalls, performAll_append]
    by_cases hrest : startsWith "\x7d" (trim h.rest) = true
    · rw [if_pos hrest]
      by_cases hsteps : style = .steps
      · rw [if_pos hsteps, if_neg fun h => h.2 hsteps]
        exact hstyle
      · rw [if_neg hsteps, if_pos ⟨hrest, hsteps⟩]
        exact congrArg closeScope hstyle
    · rw [if_neg hrest, if_neg fun h => hrest h.1]
      exact hstyle
  · rw [openClass, openClassCalls, if_pos hkind, if_pos hkind]
    rfl

lemma sheet_topLevel (s : Statement) (before : Nat) :
    (w.topLevel l s before).sheet = w.sheet.performAll (topLevelCalls l s w.bound) := by
  rw [topLevel, topLevelCalls]
  by_cases hpackage : (package? s.text).isSome = true
  · simp [hpackage]
  by_cases himport : (import? s.text).isSome = true
  · simp [hpackage, himport]
  rw [if_neg hpackage, if_neg himport]
  rcases hsplit : splitAnnotations s.text with ⟨annotations, text⟩
  dsimp only
  by_cases htext : text.isEmpty = true
  · rw [if_pos htext, if_pos (.inr (.inr htext))]
    rfl
  · rw [if_neg htext, if_neg (by simp [hpackage, himport, htext])]
    cases classHeader? (stripGenerics text) with
    | none => exact sheet_skip ..
    | some h => exact sheet_openClass ..

lemma writeAccessor_eq (name : Text) (d : Locator.Descriptor) (sheet : Sheet) :
    writeAccessor name d sheet = sheet.performAll (accessorCalls name d) := by
  unfold writeAccessor accessorCalls
  generalize d.description.filter (!·.isEmpty) = description
  cases description <;> rfl

lemma sheet_field (s : Statement) (style : Style) (f : FieldHeader) (annotations : List Text) :
    (w.field l s style f annotations).sheet =
      w.sheet.performAll (fieldCalls l style f annotations) := by
  simp only [field, fieldCalls, elementField]
  split_ifs
  · rfl
  · split <;> simp [*, writeAccessor_eq]
  · rfl
  · rfl

lemma sheet_foldl_constructPage (pages : List FieldInfo) :
    (pages.foldl constructPage w).sheet = w.sheet.performAll (pages.map fun f =>
      .emit ["const " ++ f.name ++ " = new " ++ f.elementType ++ "(page);"]) := by
  induction pages generalizing w with
  | nil => rfl
  | cons f pages ih => exact ih (w.constructPage f)

lemma startMethod_kept {α : Type} {π : Walk → α} (h : ∀ w f, π (constructPage w f) = π w) (info : ClassInfo)
    (style : Style) (sig : Signature) (annotations : List Text) :
    let header := methodHeader l style sig (stepAnnotation? annotations) w.context
    π (w.startMethod l info style sig annotations) =
      π { w with context := header.2.enterMethod ((parameters sig.params).map (·.name)) header.1.pageRef
                   header.1.selfRef
                 sheet := w.sheet.openScope header.1.line header.1.closer } := by
  have hpages : ∀ (pages : List FieldInfo) (w : Walk), π (pages.foldl constructPage w) = π w := by
    intro pages
    induction pages with
    | nil => exact fun _ => rfl
    | cons f pages ih => exact fun w => (ih _).trans (h w f)
  simp only [startMethod]
  split_ifs
  · exact hpages ..
  · rfl

lemma sheet_startMethod (info : ClassInfo) (style : Style) (sig : Signature) (annotations : List Text) :
    (w.startMethod l info style sig annotations).sheet =
      w.sheet.performAll (startCalls l info style sig annotations w.context) := by
  simp only [startMethod, startCalls]
  split_ifs
  · rw [sheet_foldl_constructPage]
    rfl
  · rfl

lemma sheet_finishMethod (recognizer : Option Recognizer) (name : Text) (mark : Nat) :
    (w.finishMethod recognizer name mark).sheet =
      w.sheet.performAll (noteCalls recognizer w mark) := by
  simp only [finishMethod, noteCalls, best?, Context.leaveMethod]
  rcases consult recognizer w.asked w.context.actions with ⟨_ | _ | ⟨best, patterns⟩, asked⟩ <;> rfl

lemma sheet_convert {w : Walk} {line : Nat} {text : Text} (h : w.convert line text = .ok w') :
    w'.sheet = w.sheet.performAll (convertCalls line text w.context) := by
  rw [convert] at h
  rw [convertCalls]
  cases hs : statement line text w.context with
  | error fault => rw [hs] at h; cases h
  | ok result => rw [hs] at h; cases h; rfl

lemma sheet_inline {w after : Walk} {line : Nat} {body name : Text} {mark : Nat}
    (h : (if body.isEmpty then .ok w else w.convert line body : Except Fault Walk) = .ok after) :
    ((after.onSheet (·.closeScope)).finishMethod recognizer name mark).sheet =
      w.sheet.performAll (inlineCalls recognizer w line body mark) := by
  rw [inlineCalls, h]
  have hbody : after.sheet = w.sheet.performAll
      (if body.isEmpty then [] else convertCalls line body w.context) := by
    split_ifs at h ⊢
    · cases h; rfl
    · exact sheet_convert h
  rw [sheet_finishMethod, performAll_append, ← hbody]
  rfl

lemma method_cases {w : Walk} (h : w.method around s info style sig annotations opened = .ok w') :
    let skipped := sig.isConstructor = true ∨ trim sig.ending = ";".toList
    let blank := w.onSheet (·.blank)
    let started := blank.startMethod around.lookup info style sig annotations
    let body := inlineBody (trim sig.ending)
    (skipped ∧ (w' = w.skip s "source constructor" opened ∨ w' = w.diagnose s "abstract method")) ∨
    (¬skipped ∧ opened = true ∧ w' = started.enter (.method sig.name blank.sheet.mark)) ∨
    (¬skipped ∧ opened = false ∧ ∃ after,
      (if body.isEmpty then .ok started else started.convert s.line body) = .ok after ∧
      w' = (after.onSheet (·.closeScope)).finishMethod around.recognizer sig.name
        blank.sheet.mark) := by
  dsimp only
  rw [method] at h
  dsimp only at h
  by_cases hconstructor : sig.isConstructor = true
  · rw [if_pos hconstructor] at h
    cases h
    exact .inl ⟨.inl hconstructor, .inl rfl⟩
  by_cases habstract : trim sig.ending = ";".toList
  · rw [if_neg hconstructor, if_pos habstract] at h
    cases h
    exact .inl ⟨.inr habstract, .inr rfl⟩
  rw [if_neg hconstructor, if_neg habstract] at h
  have hkept := not_or.2 ⟨hconstructor, habstract⟩
  cases opened with
  | true =>
    cases h
    exact .inr (.inl ⟨hkept, rfl, rfl⟩)
  | false =>
    rw [if_neg Bool.false_ne_true] at h
    split_ifs at h ⊢
    · cases h
      exact .inr (.inr ⟨hkept, rfl, _, rfl, rfl⟩)
    · obtain ⟨after, hafter, h⟩ := exists_of_bind_eq_ok h
      cases h
      exact .inr (.inr ⟨hkept, rfl, after, hafter, rfl⟩)

lemma sheet_method {w : Walk} (h : w.method around s info style sig annotations opened = .ok w') :
    w'.sheet = w.sheet.performAll (methodCalls around w s info style sig annotations opened) := by
  have hstart := (w.onSheet (·.blank)).sheet_startMethod around.lookup info style sig annotations
  rw [methodCalls]
  rcases method_cases h with ⟨hskipped, hw⟩ | ⟨hkept, rfl, rfl⟩ | ⟨hkept, rfl, after, hafter, rfl⟩
  · rw [if_pos hskipped]
    rcases hw with rfl | rfl
    · exact sheet_skip ..
    · rfl
  · rw [if_neg hkept]
    dsimp only
    rw [if_pos rfl, append_nil]
    exact hstart
  · rw [if_neg hkept]
    rw [cons_append, performAll_cons, performAll_append, sheet_inline hafter, hstart]
    rfl

lemma sheet_member {w : Walk} {bodyDepth : Nat} (h : w.member around s info style bodyDepth = .ok w') :
    w'.sheet = w.sheet.performAll (memberCalls around w s info style bodyDepth) := by
  rw [member_eq] at h
  rw [memberCalls_eq]
  cases memberPlace s info style with
  | waiting hcase =>
    rw [hcase] at h ⊢
    cases h
    rfl
  | skipped reason _ hcase =>
    rw [hcase] at h ⊢
    cases h
    exact sheet_skip ..
  | method sig _ _ hcase =>
    rw [hcase] at h ⊢
    exact (sheet_method h :)
  | field f _ hcase =>
    rw [hcase] at h ⊢
    cases h
    exact sheet_field ..

lemma sheet_closing (s : Statement) (inBlock : Bool) (rest : Text) :
    (w.closing s inBlock rest).sheet =
      w.sheet.performAll (closingCalls s inBlock rest w.context) := by
  rw [closing, closingCalls]
  split_ifs
  · rfl
  · cases controlHeader? w.context rest <;> rfl
  · rfl

lemma sheet_opening (s : Statement) :
    (w.opening s).sheet = w.sheet.performAll (openingCalls s w.context) := by
  rw [opening, openingCalls]
  cases controlHeader? w.context s.text <;> rfl

lemma sheet_bodyStatement {w : Walk} {inBlock : Bool} (h : w.bodyStatement s inBlock = .ok w') :
    w'.sheet = w.sheet.performAll (bodyCalls s inBlock w.context) := by
  cases bodyPlace s with
  | closing r _ _ hwalk hcalls =>
    rw [hwalk] at h
    cases h
    rw [hcalls, sheet_closing]
  | opening _ _ _ hwalk hcalls =>
    rw [hwalk] at h
    cases h
    rw [hcalls, sheet_opening]
  | other _ _ _ hwalk hcalls =>
    rw [hwalk] at h
    rw [hcalls]
    cases hpart : bodyPart? s with
    | none =>
      rw [hpart] at h
      cases h
      rfl
    | some part =>
      rw [hpart] at h
      exact sheet_convert h

lemma sheet_leave (recognizer : Option Recognizer) (c : Construct) :
    (w.leave recognizer c).sheet = w.sheet.performAll (leaveCalls recognizer w c) := by
  cases c with
  | method name mark => exact sheet_finishMethod ..
  | classBody info style => cases style <;> rfl
  | skipped | block | commented => rfl

lemma sheet_unwindFrames (recognizer : Option Recognizer) (frames : List Frame) :
    (unwindFrames recognizer w frames).sheet =
      w.sheet.performAll (unwindCalls recognizer w frames) := by
  induction frames generalizing w with
  | nil => rfl
  | cons f outer ih =>
    rw [unwindFrames, unwindCalls]
    split_ifs
    · rw [ih, sheet_leave, performAll_append]
    · rfl

lemma sheet_count (s : Statement) : (w.count s).sheet = w.sheet.performAll (countCalls w s) := by
  simp only [count, countCalls]
  split_ifs <;> rfl

lemma sheet_within {w : Walk} {before : Nat} {frame : Option Frame}
    (h : w.within around before s frame = .ok w') :
    w'.sheet = w.sheet.performAll (withinCalls around w before s frame) := by
  unfold within at h
  unfold withinCalls
  by_cases hclosers : isClosersOnly s.text = true ∧ (!isCommented frame) = true
  · rw [if_pos hclosers] at h ⊢
    cases h
    rfl
  · rw [if_neg hclosers] at h ⊢
    rcases frame with _ | ⟨_ | ⟨info, style⟩ | _ | _ | _, depth⟩
    · cases h
      exact sheet_topLevel ..
    · cases h
      rfl
    · dsimp only at h ⊢
      split_ifs at h ⊢
      · exact sheet_member h
      · cases h
        rfl
    · exact sheet_bodyStatement h
    · exact sheet_bodyStatement h
    · cases h
      rfl

lemma checked_eq_ok_iff {w : Walk} : w.checked = .ok w' ↔ w.broken = none ∧ w' = w := by
  rw [checked]
  cases w.broken <;> simp [eq_comm]

/-- **A statement** does to the sheet what its calls do, and nothing else. -/
lemma sheet_step {w : Walk} (h : w.step around s = .ok w') :
    w'.sheet = w.sheet.performAll (stepCalls around w s) := by
  rw [step] at h
  rw [stepCalls]
  by_cases hcomment : s.isComment = true
  · rw [if_pos hcomment] at h ⊢
    cases h
    split_ifs <;> rfl
  · rw [if_neg hcomment] at h ⊢
    obtain ⟨inside, hinside, h⟩ := exists_of_bind_eq_ok h
    obtain ⟨-, rfl⟩ := checked_eq_ok_iff.1 h
    rw [hinside, performAll_append, performAll_append, ← sheet_count, ← sheet_within hinside]
    exact sheet_unwindFrames ..

lemma sheet_foldlM {w : Walk} {statements : List Statement} (h : statements.foldlM (step around) w = .ok w')
    :
    w'.sheet = w.sheet.performAll (walkCalls around w statements) := by
  induction statements generalizing w with
  | nil => cases h; rfl
  | cons s rest ih =>
    obtain ⟨next, hnext, h⟩ := foldlM_cons_eq_ok.1 h
    rw [walkCalls, hnext, performAll_append, ← sheet_step hnext]
    exact ih h

end Walk

namespace Task

variable {t : Task}

lemma finishedSheet_eq (h : t.walk = .ok w) :
    finishedSheet w = Sheet.performAll { baseImports := t.baseImports } t.calls := by
  have himports : ∀ (statements : List Text) (sheet : Sheet),
      statements.foldl addImport sheet = sheet.performAll (statements.map .addImport) := by
    intro statements sheet
    rw [performAll, foldl_map]
    rfl
  rw [finishedSheet, himports, Walk.sheet_foldlM h, calls, h, performAll_append]
  rfl

/-- **A file.**  Its code is what its calls write on an empty sheet. -/
lemma run_code {o : Output} (h : t.run = .ok o) :
    o.code = (Sheet.performAll { baseImports := t.baseImports } t.calls).render := by
  obtain ⟨w, hw, h⟩ := exists_of_bind_eq_ok h
  cases h
  rw [← finishedSheet_eq hw]

end Task

end Restage.Conversion
