import Restage.Conversion.ControlHeader
import Restage.Conversion.Walk.Class
import Restage.Conversion.Walk.Field
import Restage.Conversion.Walk.Method

/-!
# Steps of a walk

What a statement becomes depends on the innermost open construct: outside of all classes it is a
declaration, in a class a member, in a method or block a statement to convert.  After each statement
the frames whose braces it closed are left.  The walk ends there if a reply could not be listed.
-/

namespace Restage.Conversion

open Text Java TypeScript

namespace Walk

/-! ## Outside of classes -/

/-- A statement outside of all classes. -/
def topLevel (w : Walk) (l : Lookup) (s : Statement) (before : Nat) : Walk :=
  if (package? s.text).isSome then w.diagnose s "package declaration"
  else if (import? s.text).isSome then w.diagnose s "source import"
  else
    let (annotations, text) := splitAnnotations s.text
    if text.isEmpty then { w with pending := w.pending ++ annotations }
    else
      let w := { w with pending := [] }
      match classHeader? (stripGenerics text) with
      | some h => w.openClass l s h
      | none => w.skip s "no pattern match" (before < w.depth)

/-! ## Members -/

def declaration (w : Walk) (around : Surroundings) (s : Statement) (info : ClassInfo)
    (style : Style) (text : Text) (annotations : List Text) (opened : Bool) : Except Fault Walk :=
  if style = .exception then .ok (w.skip s "exception class member" opened)
  else if (classHeader? (stripGenerics text)).isSome then .ok (w.skip s "nested class" opened)
  else match signature? (some info.name) text with
    | some sig => w.method around s info style sig annotations opened
    | none =>
      match field? text with
      | some f => .ok (w.field around.lookup s style f annotations)
      | none => .ok (w.skip s "no pattern match" opened)

/-- A statement in the body of a class.  Annotations wait for their declaration. -/
def member (w : Walk) (around : Surroundings) (s : Statement) (info : ClassInfo) (style : Style)
    (bodyDepth : Nat) : Except Fault Walk :=
  let (found, text) := splitAnnotations s.text
  let annotations := w.pending ++ found
  if text.isEmpty then .ok { w with pending := annotations }
  else
    { w with pending := [] }.declaration around s info style text annotations (bodyDepth < w.depth)

/-! ## Bodies of methods -/

/-- A statement that starts by closing a brace: nothing more, or the continuation of a block. -/
def closing (w : Walk) (s : Statement) (inBlock : Bool) (rest : Text) : Walk :=
  if rest.isEmpty ∨ rest = ";".toList then w
  else match if inBlock ∧ s.opens ≠ 0 then controlHeader? w.context rest else none with
    | some (header, context) => { w with context, sheet := w.sheet.chain ("\x7d " ++ header) }
    | none => w.todo s

def opening (w : Walk) (s : Statement) : Walk :=
  match controlHeader? w.context s.text with
  | some (header, context) =>
    { w with context, sheet := w.sheet.openScope header }.enter .block
  | none => (w.todo s).enter .commented

def bodyStatement (w : Walk) (s : Statement) (inBlock : Bool) : Except Fault Walk :=
  match s.text with
  | '\x7d' :: r => .ok (w.closing s inBlock (trim r))
  | text =>
    if s.closes < s.opens then .ok (w.opening s)
    else match if s.opens < s.closes then dropFinal? '\x7d' text else none with
      | some inner => if allBlank inner then .ok w else w.convert s.line (trim inner)
      | none => w.convert s.line text

/-! ## Leaving constructs -/

def leave (w : Walk) (recognizer : Option Recognizer) (c : Construct) : Walk :=
  let w := if c.hasScope then w.onSheet (·.closeScope) else w
  match c with
  | .method name mark => w.finishMethod recognizer name mark
  | .classBody _ _ => w.onSheet (·.blank)
  | _ => w

/-- Leaves the innermost constructs whose bodies lie deeper than the source is now. -/
def unwindFrames (recognizer : Option Recognizer) (w : Walk) : List Frame → Walk
  | [] => { w with frames := [] }
  | f :: outer =>
    if w.depth < f.depth then unwindFrames recognizer (w.leave recognizer f.construct) outer
    else { w with frames := f :: outer }

/-- Leaves the constructs that are closed. -/
def unwind (w : Walk) (recognizer : Option Recognizer) : Walk :=
  unwindFrames recognizer w w.frames

/-! ## Statements -/

/-- Counts the braces of a statement.  The depth does not fall below zero; a brace that closes
nothing in the source closes a scope of the sheet. -/
def count (w : Walk) (s : Statement) : Walk :=
  let w' := { w with depth := w.depth + s.opens - s.closes }
  if w.depth + s.opens < s.closes then w'.onSheet (·.closeScope) else w'

/-- Whether a text consists of characters that close something. -/
def isClosersOnly (t : Text) : Bool := t.all fun c => c == '\x7d' || c == ')' || c == ';'

/-- Whether everything in a construct is kept as comments. -/
def isCommented : Option Frame → Bool
  | some ⟨.commented, _⟩ => true
  | _ => false

/-- A statement, given the construct that it stands in. -/
def within (w : Walk) (around : Surroundings) (before : Nat) (s : Statement)
    (frame : Option Frame) : Except Fault Walk :=
  if isClosersOnly s.text ∧ !isCommented frame then .ok w
  else match frame with
    | none => .ok (w.topLevel around.lookup s before)
    | some ⟨.skipped, _⟩ => .ok w
    | some ⟨.commented, _⟩ => .ok (w.todo s)
    | some ⟨.method _ _, _⟩ => w.bodyStatement s false
    | some ⟨.block, _⟩ => w.bodyStatement s true
    | some ⟨.classBody info style, depth⟩ =>
      if before = depth then w.member around s info style depth else .ok w

/-- Whether comments are kept in a construct. -/
def keepsComments : Option Frame → Bool
  | some ⟨.skipped, _⟩ | some ⟨.commented, _⟩ | some ⟨.classBody _ .exception, _⟩ => false
  | _ => true

/-- A line of a comment; continuation lines are moved in by one. -/
def commentLine (line : Text) : Text :=
  let t := trim line
  if startsWith "*" t then ' ' :: t else t

/-- The walk, unless a reply has broken it. -/
def checked (w : Walk) : Except Fault Walk := w.broken.elim (.ok w) .error

def step (around : Surroundings) (w : Walk) (s : Statement) : Except Fault Walk :=
  if s.isComment then
    .ok (if keepsComments w.frames.head? then w.onSheet (·.emitAll (s.rawLines.map commentLine))
      else w)
  else do
    let w ← (w.count s).within around w.depth s w.frames.head?
    (w.unwind around.recognizer).checked

end Walk

end Restage.Conversion
