import Restage.Conversion.Rule.Basic

/-!
# Statements that pass through

Logging, navigation, page objects, exceptions, returns, literal declarations and calls of known
methods have direct counterparts.
-/

namespace Restage.Conversion

open Text Java

/-! ## Logging and navigation -/

def logCallees : List Text :=
  (["System.out.print", "System.out.println", "System.err.print", "System.err.println",
    "Reporter.log"] : List Text)
  ++ (["logger", "log", "LOGGER", "LOG"] : List Text).flatMap fun receiver =>
    (["info", "debug", "warn", "error", "trace"] : List Text).map fun (level : Text) =>
      receiver ++ "." ++ level

/-- Log messages; only the first argument is kept. -/
def log (t : Text) (ctx : Context) : Except Fault Verdict :=
  Verdict.ofOption ctx do
    let (_, r) ← calledName? logCallees t
    let arguments ← callArguments? r
    let message : Text := ((splitArguments arguments).head?.map (expression ctx)).getD []
    some ("console.log(" ++ message ++ ");", ctx)

def navigate (t : Text) (ctx : Context) : Except Fault Verdict :=
  Verdict.ofOption ctx do
    let r ← driver? t
    let r ← (literal? ".get(" r).or (literal? ".navigate().to(" r)
    let address ← (callArguments? r).filter (!·.isEmpty)
    let address := expression ctx address
    some ("await " ++ ctx.pageRef ++ ".goto(" ++ address ++ ");",
      ctx.record "navigate" none (some address))

def historyMoves : List (Text × Text) :=
  [("refresh", "reload"), ("back", "goBack"), ("forward", "goForward")]

def history (t : Text) (ctx : Context) : Except Fault Verdict :=
  Verdict.ofOption ctx do
    let r ← (driver? t).bind (literal? ".navigate().")
    let (method, r) ← historyMoves.findSome? fun (move, method) =>
      (literal? (move ++ "()") r).map (method, ·)
    let r ← literal? ";" (blanks r)
    if atEnd r then
      some ("await " ++ ctx.pageRef ++ "." ++ method ++ "();", ctx.record method)
    else none

/-! ## Page objects -/

/-- Reads `new Name(`. -/
def constructed? (t : Text) : Option (Text × Text) := do
  let (name, r) ← ((literal? "new" t).bind someBlanks?).bind word?
  let r ← literal? "(" r
  some (name, r)

/-- A variable that is set to a new object. -/
structure NewObject where
  /-- Whether the variable is declared with a type. -/
  typed : Bool
  name : Text
  className : Text
  deriving DecidableEq, Repr

/-- Reads a variable, an equals sign, and the construction of an object. -/
def newObjectFrom? (typed : Bool) (t : Text) : Option NewObject := do
  let (name, r) ← word? t
  let r ← literal? "=" (blanks r)
  let (className, r) ← constructed? (blanks r)
  let _ ← flatStatement? r
  some { typed, name, className }

/-- The shape of a statement that sets a variable to a new object. -/
def newObject? (t : Text) : Option NewObject :=
  (afterFinal t).findSome? fun start =>
    (((word? start).bind fun (_, r) => someBlanks? r).bind (newObjectFrom? true)).or
      (newObjectFrom? false start)

def newPageObject (t : Text) (ctx : Context) : Except Fault Verdict :=
  Verdict.ofOption ctx do
    let found ← newObject? t
    if ctx.isPageClass found.className then
      let keyword : Text := if found.typed then "const " else []
      some (keyword ++ found.name ++ " = new " ++ found.className ++ "(" ++ ctx.pageRef ++ ");",
        (ctx.importClass found.className).declare found.name found.className)
    else none

/-- A call on a new object: its class and the call. -/
def chainedCall? (t : Text) : Option (Text × Text) := do
  let (className, r) ← constructed? t
  let (_, r) ← flatArguments? r
  let call ← literal? "." r
  let (name, r) ← word? call
  let r ← literal? "(" r
  let arguments ← callArguments? r
  some (className, name ++ "(" ++ arguments ++ ")")

/-- A call on a new page object.  The class is imported as soon as it is known to be one. -/
def chainedPageCall (t : Text) (ctx : Context) : Except Fault Verdict :=
  match chainedCall? t with
  | none => Verdict.decline ctx
  | some (className, call) =>
    if ctx.isPageClass className then
      let ctx := ctx.importClass className
      Verdict.ofOption ctx do
        let (callee, arguments) ← splitCall? (call ++ ";")
        some ("await new " ++ className ++ "(" ++ ctx.pageRef ++ ")." ++ callee ++ "("
          ++ join ", " (convertedArguments ctx arguments) ++ ");", ctx)
    else Verdict.decline ctx

/-! ## Exceptions, returns and declarations -/

/-- Throwing an exception; one that is no exception of the project becomes an `Error`. -/
def throw (t : Text) (ctx : Context) : Except Fault Verdict :=
  Verdict.ofOption ctx do
    let (name, r) ← ((literal? "throw" t).bind someBlanks?).bind constructed?
    let arguments ← callArguments? r
    let listed := join ", " (convertedArguments ctx arguments)
    if ctx.project.any fun p => (p.roles name).isException then
      some ("throw new " ++ name ++ "(" ++ listed ++ ");", ctx.importClass name)
    else some ("throw new Error(" ++ listed ++ ");", ctx)

/-- The expression of a return statement; it is empty if there is none. -/
def returned? (t : Text) : Option Text := do
  let r ← literal? "return" t
  let body ← beforeSemicolon? r
  let value := trim body
  if value.isEmpty then some []
  else if (body.head?.any isBlank) ∧ onOneLine value then some value
  else none

/-- The class of an expression that constructs an object. -/
def newExpression? (t : Text) : Option Text := do
  let (name, r) ← constructed? t
  let _ ← beforeClose? r
  some name

/-- Returns of nothing, of the object itself, of a literal, of a variable or of a page object. -/
def returns (t : Text) (ctx : Context) : Except Fault Verdict :=
  Verdict.ofOption ctx do
    let value ← returned? t
    if value.isEmpty then some ("return;", ctx)
    else if value = "this".toList ∧ ctx.selfRef.isSome then some ("return this;", ctx)
    else if isLiteral value ∨ ctx.scope.contains value then some ("return " ++ value ++ ";", ctx)
    else
      let name ← newExpression? value
      if ctx.isPageClass name then
        some ("return new " ++ name ++ "(" ++ ctx.pageRef ++ ");", ctx.importClass name)
      else none

/-- A declared variable and its initial value. -/
structure Initialised where
  type : Text
  name : Text
  value : Text
  deriving DecidableEq, Repr

/-- The shape of the declaration of a variable with an initial value. -/
def initialised? (t : Text) : Option Initialised :=
  (afterFinal t).findSome? fun start => do
    let (type, r) ← run? isDotted start
    let (name, r) ← (someBlanks? r).bind word?
    let value ← (literal? "=" (blanks r)).bind initialValue?
    some { type, name, value }

def literalDeclaration (t : Text) (ctx : Context) : Except Fault Verdict :=
  Verdict.ofOption ctx do
    let found ← initialised? t
    let value := trim found.value
    if isLiteral value then
      some ("const " ++ found.name ++ " = " ++ plainLiteral value ++ ";",
        ctx.declare found.name found.type)
    else none

/-! ## Calls of known methods -/

/-- Whether a text is a dotted name that starts with a letter or underscore. -/
def isDottedName : Text → Bool
  | [] => false
  | c :: r => isNameStart c && r.all isDotted

/-- The text of a call statement on one line, without a final line feed. -/
def callStatement? (t : Text) : Option Text := do
  let (callee, r) ← cutFirst? '(' t
  let _ ← callArguments? r
  if isDottedName callee then some (dropFinalNewline t) else none

def receiverAndName (callee : Text) : Text × Text :=
  ((beforeLast? '.' callee).getD [], afterLast '.' callee)

/-- Whether a masked text has as many opening as closing braces, and no arrow. -/
def hasNoBlocks (masked : Text) : Bool :=
  occurrences '\x7b' masked == occurrences '\x7d' masked && !occursIn "->" masked

def isDriverReceiver (receiver : Text) : Bool :=
  receiver == "driver" || receiver == "this.driver" || startsWith "driver." receiver

/-- The call of a method of the class itself. -/
def ownCall? (ctx : Context) (name : Text) (arguments : List Text) : Option Text :=
  if ctx.functions.contains name then
    some ("await " ++ name ++ "(" ++ join ", " (ctx.pageRef :: arguments) ++ ");")
  else match ctx.className.filter fun c => ctx.staticMethods.contains name && !c.isEmpty with
    | some className =>
      some ("await " ++ className ++ "." ++ name ++ "(" ++ join ", " (ctx.pageRef :: arguments)
        ++ ");")
    | none =>
      if ctx.methodNames.contains name ∨ ctx.ancestors.any (·.methodNames.contains name) then
        ctx.selfRef.map fun self =>
          "await " ++ self ++ "." ++ name ++ "(" ++ join ", " arguments ++ ");"
      else none

/-- The call of a method of another object or class. -/
def otherCall (ctx : Context) (receiver name : Text) (arguments : List Text) : Text × Context :=
  let known := (ctx.project.bind (·.get? receiver)).filter (·.name = receiver)
  let (arguments, after) := match known with
    | some c =>
      (if c.methods.any fun m => m.name = name && m.isStatic then ctx.pageRef :: arguments
        else arguments, ctx.importClass c.name)
    | none => (arguments, ctx)
  ("await " ++ receiver ++ "." ++ name ++ "(" ++ join ", " arguments ++ ");",
    after.record "call" (some receiver) (some name))

def genericCall (t : Text) (ctx : Context) : Except Fault Verdict :=
  Verdict.ofOption ctx do
    let statement ← callStatement? t
    let (callee, raw) ← splitCall? statement
    let (receiver, name) := receiverAndName callee
    if !hasNoBlocks (mask raw) ∨ !isDottedName callee ∨ keywords.contains name
        ∨ keywords.contains receiver ∨ name = "super".toList then none
    else
      let arguments := convertedArguments ctx raw
      if receiver = [] ∨ receiver = "this".toList then
        (ownCall? ctx name arguments).map (·, ctx)
      else if isDriverReceiver receiver then none
      else some (otherCall ctx receiver name arguments)

end Restage.Conversion
