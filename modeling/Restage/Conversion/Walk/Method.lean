import Restage.Conversion.Statement
import Restage.Conversion.StepPhrase
import Restage.Conversion.Walk.Basic
import Restage.TypeScript.TypeName

/-!
# Methods

A method becomes a step registration, a function of the module, a static method or a method.  When
it is left, the recognizer is asked about the actions recorded in it, and the best pattern is noted
above its header.
-/

namespace Restage.Conversion

open Text Java TypeScript

/-! ## Types and parameters -/

def dropBrackets (t : Text) : Text := (arrayElement? t).getD t

/-- The counterpart of a type.  A class that can be looked up is imported. -/
def typeReference (l : Lookup) (type : Text) (ctx : Context) : Text × Context :=
  let name := typeName type
  let bare := dropBrackets name
  (name, if (l.class? bare).isSome then ctx.importClass bare else ctx)

def typedParameters (l : Lookup) : List Parameter → Context → List Text × Context
  | [], ctx => ([], ctx)
  | p :: rest, ctx =>
    let (type, ctx) := typeReference l p.type ctx
    let (typed, ctx) := typedParameters l rest ctx
    ((p.name ++ ": " ++ type) :: typed, ctx)

/-! ## Headers -/

def stepKeyword (name : Text) : Text :=
  if (["Given", "When", "Then"] : List Text).contains name then name else "Step"

/-- The header of a method: the line, what closes its scope, and how the body refers to the page
and to the object. -/
structure MethodHeader where
  line : Text
  closer : Text := "\x7d"
  pageRef : Text := "page"
  selfRef : Option Text := none
  deriving DecidableEq, Repr

def stepHeader (step : Step) (typed : List Text) : MethodHeader where
  line := stepKeyword step.name ++ "(" ++ literal [] (stepPhrase step.phrase) ++ ", async ("
    ++ join ", " ("\x7b page \x7d".toList :: typed) ++ ") => \x7b"
  closer := "\x7d);"

/-- The header of a function that gets the page as its first parameter. -/
def pageFunctionHeader (opening name : Text) (typed : List Text) (result : Text) :
    MethodHeader where
  line := opening ++ name ++ "(" ++ join ", " ("page: Page".toList :: typed) ++ "): Promise<"
    ++ result ++ "> \x7b"

def pageMethodHeader (name : Text) (typed : List Text) (result : Text) : MethodHeader where
  line := "async " ++ name ++ "(" ++ join ", " typed ++ "): Promise<" ++ result ++ "> \x7b"
  pageRef := "this.page"
  selfRef := some "this"

def methodHeader (l : Lookup) (style : Style) (sig : Signature) (step : Option Step)
    (ctx : Context) : MethodHeader × Context :=
  let (typed, ctx) := typedParameters l (parameters sig.params) ctx
  match style, step with
  | .steps, some step => (stepHeader step typed, ctx)
  | style, _ =>
    let (result, ctx) := typeReference l (sig.result.getD []) ctx
    (if style = .steps then pageFunctionHeader "async function " sig.name typed result
      else if sig.modifiers.contains "static" then
        pageFunctionHeader "static async " sig.name typed result
      else pageMethodHeader sig.name typed result, ctx)

/-! ## Page objects in steps -/

def occursAsWord (name : Text) (t : Text) : Bool :=
  (scanFrom (fun before r =>
    if before.any isWord then none
    else (literal? name r).filter (fun rest => !rest.head?.any isWord) |>.map ((), ·))
    none 0 t).any Sum.isRight

/-- The fields of a class of steps that hold page objects and are named in the body of a method. -/
def namedPages (l : Lookup) (info : ClassInfo) (method : Text) : List FieldInfo :=
  let source := info.properMethods.find? (·.name = method)
  let body := (source.map fun m => join "\n" m.rawBody).getD []
  info.fields.filter fun f => l.isPageType f.elementType && occursAsWord f.name body

namespace Walk

/-- Constructs the page object that a field holds. -/
def constructPage (w : Walk) (f : FieldInfo) : Walk :=
  (w.onContext fun ctx => (ctx.importClass f.elementType).declare f.name f.elementType).onSheet
    (·.emit ("const " ++ f.name ++ " = new " ++ f.elementType ++ "(page);"))

/-! ## Bodies -/

/-- Converts a statement of a body and writes its lines. -/
def convert (w : Walk) (line : Nat) (text : Text) : Except Fault Walk := do
  let (lines, context) ← statement line text w.context
  .ok { w with context, sheet := w.sheet.emitAll lines }

def patternNote (p : Pattern) : Text :=
  let description : Text := if p.description.isEmpty then [] else " - " ++ p.description
  "// Pattern: " ++ p.name ++ " (" ++ p.confidence.value.fixed 2 ++ ")" ++ description

/-- Leaves a method: its patterns are asked for, and the best one is noted at its mark. -/
def finishMethod (w : Walk) (recognizer : Option Recognizer) (name : Text) (mark : Nat) : Walk :=
  let (actions, context) := w.context.leaveMethod
  let (patterns, asked) := consult recognizer w.asked actions
  let w := { w with context, asked }
  match patterns with
  | .error message => { w with broken := w.broken.or (some (.unlistable actions message)) }
  | .ok [] => w
  | .ok (best :: others) =>
    { w with patterns := w.patterns.put name (best :: others)
             sheet := (w.sheet.insert? mark [patternNote best]).getD w.sheet }

/-- The body of a method that stands on one line with its header. -/
def inlineBody (ending : Text) : Text :=
  match ending with
  | '\x7b' :: r => trim (dropEnd (· == '\x7d') r)
  | _ => []

/-- Writes the header of a method and starts its body. -/
def startMethod (w : Walk) (l : Lookup) (info : ClassInfo) (style : Style) (sig : Signature)
    (annotations : List Text) : Walk :=
  let (header, context) := methodHeader l style sig (stepAnnotation? annotations) w.context
  let names := (parameters sig.params).map (·.name)
  let w := { w with context := context.enterMethod names header.pageRef header.selfRef
                    sheet := w.sheet.openScope header.line header.closer }
  if style = .steps then (namedPages l info sig.name).foldl constructPage w else w

def method (w : Walk) (around : Surroundings) (s : Statement) (info : ClassInfo) (style : Style)
    (sig : Signature) (annotations : List Text) (opened : Bool) : Except Fault Walk :=
  let ending := trim sig.ending
  if sig.isConstructor then .ok (w.skip s "source constructor" opened)
  else if ending = ";".toList then .ok (w.diagnose s "abstract method")
  else
    let w := w.onSheet (·.blank)
    let mark := w.sheet.mark
    let w := w.startMethod around.lookup info style sig annotations
    if opened then .ok (w.enter (.method sig.name mark))
    else do
      let body := inlineBody ending
      let w ← if body.isEmpty then .ok w else w.convert s.line body
      .ok ((w.onSheet (·.closeScope)).finishMethod around.recognizer sig.name mark)

end Walk

end Restage.Conversion
