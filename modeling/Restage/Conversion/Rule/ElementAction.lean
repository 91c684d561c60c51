import Restage.Conversion.Rule.Basic

/-!
# Element actions

An action on an element may be preceded by `return`, by the declaration of a variable or by an
assignment.  A key press is a `sendKeys` whose only argument is a member of `Keys`.
-/

namespace Restage.Conversion

open Text Java

def elementActions : List (Text × Text) :=
  [("click", "click"), ("sendKeys", "fill"), ("clear", "clear"), ("isDisplayed", "isVisible"),
   ("isVisible", "isVisible"), ("isPresent", "isVisible"), ("isEnabled", "isEnabled"),
   ("isSelected", "isChecked"), ("isChecked", "isChecked"), ("getText", "innerText"),
   ("getAttribute", "getAttribute"), ("submit", "press")]

def keyNames : List (Text × Text) :=
  [("ENTER", "Enter"), ("RETURN", "Enter"), ("TAB", "Tab"), ("ESCAPE", "Escape"),
   ("BACK_SPACE", "Backspace"), ("DELETE", "Delete"), ("SPACE", "Space"),
   ("ARROW_DOWN", "ArrowDown"), ("ARROW_UP", "ArrowUp")]

def keyName (key : Text) : Text := (Table.get? keyNames key).getD (title key)

/-! ## What precedes the element -/

/-- The texts after some of the blanks at the start of a text, the one after all of them first. -/
def blankEnds : Text → List Text
  | [] => [[]]
  | c :: r => if isBlank c then blankEnds r ++ [c :: r] else [c :: r]

def returnEnds (t : Text) : List Text :=
  match literal? "return" t with
  | some r => (blankEnds r).dropLast
  | none => []

/-- The texts after the declaration of a variable and its equals sign. -/
def declarationEnds (t : Text) : List Text :=
  (afterFinal t).flatMap fun start =>
    (typeEnds start).flatMap fun rest =>
      match ((someBlanks? rest).bind word?).bind fun (_, r) => literal? "=" (blanks r) with
      | some r => blankEnds r
      | none => []

/-- The texts after an assignment's equals sign. -/
def assignmentEnds (t : Text) : List Text :=
  match (run? isDotted t).bind fun (_, r) => literal? "=" (blanks r) with
  | some r => blankEnds r
  | none => []

/-- The texts from which the element may be read, in order of preference. -/
def actionStarts (t : Text) : List Text :=
  returnEnds t ++ declarationEnds t ++ assignmentEnds t ++ [t]

/-- An action on an element and the text before it. -/
structure ElementAction where
  before : Text
  call : ReceiverCall
  deriving DecidableEq, Repr

def elementAction? (t : Text) : Option ElementAction :=
  (actionStarts t).findSome? fun start =>
    (receiverCall? (elementActions.map (·.1)) callArguments? start).map fun call =>
      { before := consumed t start, call }

/-- The counterpart of `return`, a declaration or an assignment; a declaration brings its variable
into scope. -/
def convertBefore (raw : Text) (ctx : Context) : Text × Context :=
  let t := trim raw
  if raw.isEmpty then ([], ctx)
  else if t = "return".toList then ("return ", ctx)
  else match declaredVariable? (fun r => if atEnd r then some r else none) t with
    | some (type, name, _) => ("const " ++ name ++ " = ", ctx.declare name type)
    | none => (trim (dropEnd (fun c => c == '=' || c == ' ') t) ++ " = ", ctx)

def actionCall (action : Text) (arguments : List Text) : Text × List Text :=
  let method := (Table.get? elementActions action).getD []
  if action = "submit".toList then (method, ["'Enter'"])
  else match action == "sendKeys", arguments with
    | true, [argument] =>
      match literal? "Keys." argument with
      | some key => ("press", ["'" ++ keyName key ++ "'"])
      | none => (method, arguments)
    | _, _ => (method, arguments)

def elementAction (t : Text) (ctx : Context) : Except Fault Verdict :=
  Verdict.ofOption ctx do
    let found ← elementAction? t
    let element ← element? ctx found.call.receiver
    let (method, arguments) :=
      actionCall found.call.method (convertedArguments ctx found.call.arguments)
    let (before, declared) := convertBefore found.before ctx
    let listed := join ", " arguments
    some (before ++ "await " ++ element ++ "." ++ method ++ "(" ++ listed ++ ");",
      declared.record method (some (elementName found.call.receiver))
        (if listed.isEmpty then none else some listed))

end Restage.Conversion
