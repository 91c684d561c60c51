import Restage.Proofs.Conversion.Calls

/-!
# Where a walk takes place

What a walk does next depends on its context, on the brace depth, on pending annotations and on
whether the step keywords have been bound.  The rest is only added to: the sheet, the frames, the
patterns, the questions to the recognizer and a reply that broke the walk.  They are its `place`.

So a function of the walk does the same on every place.  It makes the same calls on the sheet that
is there, and the frames that it enters come on top of those that are open.  There is one equation
for each function that leaves no method.  Two walks that differ in their places only are compared
through them.
-/

namespace Restage.Conversion

open Text Java TypeScript

/-- The part of a walk that no decision depends on. -/
structure Place where
  sheet : Sheet
  frames : List Frame
  patterns : Table (List Pattern)
  asked : List (List Action)
  broken : Option Fault

/-- The place after some calls on its sheet. -/
def Place.write (p : Place) (calls : List Call) : Place :=
  { p with sheet := p.sheet.performAll calls }

namespace Walk

variable {p : Place} {calls : List Call} {x y : Walk}

def place (w : Walk) : Place where
  sheet := w.sheet
  frames := w.frames
  patterns := w.patterns
  asked := w.asked
  broken := w.broken

/-- The walk without its place. -/
def bare (w : Walk) : Walk :=
  { w with sheet := {}, frames := [], patterns := [], asked := [], broken := none }

/-- The walk on another place, with the frames that it has on top. -/
def on (w : Walk) (p : Place) : Walk :=
  { w with sheet := p.sheet, frames := w.frames ++ p.frames, patterns := p.patterns,
           asked := p.asked, broken := p.broken }

lemma bare_on_place (w : Walk) : w.bare.on w.place = w := rfl

lemma eq_on_write (h : x = y.on { p with sheet := x.sheet })
    (hsheet : x.sheet = p.sheet.performAll calls) :
    x = y.on (p.write calls) := by
  rw [hsheet] at h
  exact h

lemma eq_on_sheet (h : x = y.on (p.write calls)) :
    x = y.on { p with sheet := x.sheet } := by
  rw [h]
  rfl

variable (w : Walk) (p : Place) (l : Lookup) (s : Statement) (inBlock : Bool)

/-! ## Outside of classes -/

lemma skip_on (reason : Text) (opened : Bool) :
    (w.on p).skip s reason opened = (w.skip s reason opened).on (p.write []) := by
  rw [skip, skip]
  split_ifs <;> rfl

lemma openException_on (info : ClassInfo) :
    (w.on p).openException l info =
      (w.openException l info).on (p.write (exceptionCalls l info)) := by
  refine eq_on_write ?_ ((w.on p).sheet_openException l info)
  simp only [openException]
  generalize (l.parent? info).filter _ = parent
  cases parent <;> rfl

lemma openSteps_on (info : ClassInfo) :
    (w.on p).openSteps = w.openSteps.on (p.write (styleCalls l info w.bound .steps)) := by
  refine eq_on_write ?_ ((w.on p).sheet_openSteps l info)
  have hbound : (w.on p).bound = w.bound := rfl
  rw [openSteps, openSteps, hbound]
  split_ifs <;> rfl

lemma openPage_on (info : ClassInfo) :
    (w.on p).openPage l info = (w.openPage l info).on (p.write (pageCalls l info)) := by
  refine eq_on_write ?_ ((w.on p).sheet_openPage l info)
  simp only [openPage]
  generalize (l.parent? info).filter _ = parent
  cases parent <;> rfl

lemma openStyle_on (info : ClassInfo) (style : Style) :
    (w.on p).openStyle l info style =
      (w.openStyle l info style).on (p.write (styleCalls l info w.bound style)) := by
  cases style with
  | exception => exact w.openException_on p l info
  | steps => exact w.openSteps_on p l info
  | page => exact w.openPage_on p l info

lemma openClass_on (h : ClassHeader) :
    (w.on p).openClass l s h = (w.openClass l s h).on (p.write (openClassCalls l h w.bound)) := by
  refine eq_on_write ?_ ((w.on p).sheet_openClass l s h)
  by_cases hkind : h.kind = "class".toList
  · obtain ⟨info, style, hinfo, hstyle, -, hopen⟩ := w.openClass_eq l s h hkind
    obtain ⟨_, _, rfl, rfl, -, hopen'⟩ := (w.on p).openClass_eq l s h hkind
    rw [hopen, hopen', ← hinfo, ← hstyle]
    have hstyle := (w.onContext (classContext l info style)).openStyle_on p l info style
    have hcontext : (w.on p).onContext (classContext l info style) =
        (w.onContext (classContext l info style)).on p := rfl
    rw [hcontext, hstyle]
    split_ifs <;> rfl
  · rw [openClass, openClass, if_pos hkind, if_pos hkind]
    rfl

lemma topLevel_on (before : Nat) :
    (w.on p).topLevel l s before =
      (w.topLevel l s before).on (p.write (topLevelCalls l s w.bound)) := by
  refine eq_on_write ?_ ((w.on p).sheet_topLevel l s before)
  rw [topLevel, topLevel]
  by_cases hpackage : (package? s.text).isSome = true
  · rw [if_pos hpackage, if_pos hpackage]
    rfl
  by_cases himport : (import? s.text).isSome = true
  · rw [if_neg hpackage, if_neg hpackage, if_pos himport, if_pos himport]
    rfl
  rw [if_neg hpackage, if_neg hpackage, if_neg himport, if_neg himport]
  rcases splitAnnotations s.text with ⟨annotations, text⟩
  dsimp only
  by_cases htext : text.isEmpty = true
  · rw [if_pos htext, if_pos htext]
    rfl
  rw [if_neg htext, if_neg htext]
  cases classHeader? (stripGenerics text) with
  | some h => exact eq_on_sheet ({ w with pending := [] }.openClass_on p l s h)
  | none => exact eq_on_sheet ({ w with pending := [] }.skip_on p s "no pattern match" _)

/-! ## Members -/

lemma field_on (style : Style) (f : FieldHeader) (annotations : List Text) :
    (w.on p).field l s style f annotations =
      (w.field l s style f annotations).on (p.write (fieldCalls l style f annotations)) := by
  refine eq_on_write ?_ ((w.on p).sheet_field l s style f annotations)
  simp only [field, elementField]
  split_ifs
  · rfl
  · split <;> rfl
  · rfl
  · rfl

lemma constructPages_on (pages : List FieldInfo) :
    pages.foldl constructPage (w.on p) = (pages.foldl constructPage w).on (p.write (pages.map fun f =>
      .emit ["const " ++ f.name ++ " = new " ++ f.elementType ++ "(page);"])) := by
  induction pages generalizing w p with
  | nil => rfl
  | cons f pages ih =>
    exact ih (w.constructPage f) (p.write [.emit ["const " ++ f.name ++ " = new " ++
      f.elementType ++ "(page);"]])

lemma startMethod_on (info : ClassInfo) (style : Style) (sig : Signature) (annotations : List Text) :
    (w.on p).startMethod l info style sig annotations =
      (w.startMethod l info style sig annotations).on
        (p.write (startCalls l info style sig annotations w.context)) := by
  refine eq_on_write ?_ ((w.on p).sheet_startMethod l info style sig annotations)
  have hcontext : (w.on p).context = w.context := rfl
  simp only [startMethod, hcontext]
  generalize methodHeader l style sig (stepAnnotation? annotations) w.context = found
  obtain ⟨header, context⟩ := found
  generalize (parameters sig.params).map (·.name) = names
  have hpages := eq_on_sheet <| constructPages_on
    { w with context := context.enterMethod names header.pageRef header.selfRef
             sheet := w.sheet.openScope header.line header.closer }
    (p.write [.openScope header.line header.closer]) (namedPages l info sig.name)
  split_ifs
  · exact hpages
  · rfl

/-! ## Bodies of methods -/

lemma convert_on (line : Nat) (text : Text) :
    (w.on p).convert line text =
      (w.convert line text).map (·.on (p.write (convertCalls line text w.context))) := by
  have hcontext : (w.on p).context = w.context := rfl
  rw [convert, convert, convertCalls, hcontext]
  cases statement line text w.context <;> rfl

lemma closing_on (rest : Text) :
    (w.on p).closing s inBlock rest = (w.closing s inBlock rest).on
      (p.write (closingCalls s inBlock rest w.context)) := by
  refine eq_on_write ?_ ((w.on p).sheet_closing s inBlock rest)
  have hcontext : (w.on p).context = w.context := rfl
  rw [closing, closing, hcontext]
  split_ifs
  · rfl
  · cases controlHeader? w.context rest <;> rfl
  · rfl

lemma opening_on : (w.on p).opening s = (w.opening s).on (p.write (openingCalls s w.context)) := by
  refine eq_on_write ?_ ((w.on p).sheet_opening s)
  have hcontext : (w.on p).context = w.context := rfl
  rw [opening, opening, hcontext]
  cases controlHeader? w.context s.text <;> rfl

lemma bodyStatement_on :
    (w.on p).bodyStatement s inBlock = (w.bodyStatement s inBlock).map
      (·.on (p.write (bodyCalls s inBlock w.context))) := by
  cases bodyPlace s with
  | closing r _ _ hwalk hcalls =>
    rw [hwalk, hwalk, hcalls]
    exact congrArg Except.ok (w.closing_on p s inBlock (trim r))
  | opening _ _ _ hwalk hcalls =>
    rw [hwalk, hwalk, hcalls]
    exact congrArg Except.ok (w.opening_on p s)
  | other _ _ _ hwalk hcalls =>
    rw [hwalk, hwalk, hcalls]
    cases bodyPart? s with
    | none => rfl
    | some part => exact w.convert_on p s.line part

lemma count_on : (w.on p).count s = (w.count s).on (p.write (countCalls w s)) := by
  refine eq_on_write ?_ ((w.on p).sheet_count s)
  simp only [count]
  split_ifs <;> rfl

end Walk

end Restage.Conversion
