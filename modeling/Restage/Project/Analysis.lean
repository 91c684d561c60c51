import Restage.Java.Statement
import Restage.Project.Roles

/-!
# Analysis of a document

The analysis walks over the statements of a document with the brace depth and keeps the classes that
are open, the innermost first, and the method whose body is being read.  A class declaration opens a
record; methods and fields are entered into the innermost class when they stand directly in its
body; a class is finished when the depth falls below its body.  Nested classes get records of their
own beside the outer one, and all records come back in source order.
-/

namespace Restage

open Text Java

/-- A class whose body is being read. -/
structure OpenClass where
  name : Text
  line : Nat
  /-- The brace depth inside its body. -/
  bodyDepth : Int
  parent : Option Text
  interfaces : List Text
  fields : List FieldInfo := []
  methods : List MethodInfo := []
  deriving DecidableEq, Repr

/-- A method whose body is being read. -/
structure OpenMethod where
  info : MethodInfo
  /-- The brace depth outside its body. -/
  openDepth : Int
  body : List Text := []
  deriving DecidableEq, Repr

/-- The state of the analysis. -/
structure Analysis where
  package : Text := []
  imports : List Text := []
  /-- The classes that are complete, in the order of their ends. -/
  finished : List OpenClass := []
  /-- The classes that are open, the innermost first. -/
  stack : List OpenClass := []
  method : Option OpenMethod := none
  /-- Annotations that wait for their declaration. -/
  pending : List Text := []
  depth : Int := 0
  deriving DecidableEq, Repr

namespace Analysis

/-- Changes the innermost open class. -/
def updateTop (a : Analysis) (f : OpenClass → OpenClass) : Analysis :=
  match a.stack with
  | [] => a
  | top :: rest => { a with stack := f top :: rest }

/-- Enters a method into the innermost open class. -/
def addMethod (a : Analysis) (m : MethodInfo) : Analysis :=
  a.updateTop fun c => { c with methods := c.methods ++ [m] }

/-- Enters a field into the innermost open class. -/
def addField (a : Analysis) (f : FieldInfo) : Analysis :=
  a.updateTop fun c => { c with fields := c.fields ++ [f] }

/-- The classes of a stack that the depth has left, and those still open. -/
def leave (depth : Int) : List OpenClass → List OpenClass × List OpenClass
  | [] => ([], [])
  | top :: rest =>
    if depth < top.bodyDepth then
      let (done, remaining) := leave depth rest
      (top :: done, remaining)
    else ([], top :: rest)

/-- Finishes the classes whose body the depth has left. -/
def closeClasses (a : Analysis) : Analysis :=
  let (done, remaining) := leave a.depth a.stack
  { a with finished := a.finished ++ done, stack := remaining }

/-- A statement inside the body of a method. -/
def inMethod (a : Analysis) (m : OpenMethod) (s : Statement) : Analysis :=
  if a.depth ≤ m.openDepth then
    let body := if s.text = "\x7d".toList then m.body else m.body ++ s.rawLines
    { a.addMethod { m.info with rawBody := body } with method := none }
  else { a with method := some { m with body := m.body ++ s.rawLines } }

/-- The record of a class that a declaration opens. -/
def openClass (h : ClassHeader) (line : Nat) (bodyDepth : Int) : OpenClass where
  name := h.name
  line := line
  bodyDepth := bodyDepth
  parent := (((h.extended.map (parts ',')).bind List.head?).map trim).filter (!·.isEmpty)
  interfaces := ((parts ',' (h.implemented.getD [])).map trim).filter (!·.isEmpty)

/-- The record of a method, without its body. -/
def methodInfo (s : Signature) (annotations : List Text) : MethodInfo where
  name := s.name
  result := s.result.getD []
  parameters := parameters s.params
  visibility := visibility s.modifiers
  isStatic := s.modifiers.contains "static"
  annotations := annotations
  stepDescription := (stepAnnotation? annotations).map (·.phrase)
  isConstructor := s.isConstructor

def fieldInfo (f : FieldHeader) (annotations : List Text) : FieldInfo where
  name := f.name
  type := f.type
  annotations := annotations
  initial := f.initial
  isStatic := f.modifiers.contains "static"

/-- The body of a method that stands on one line with its declaration. -/
def inlineBody (ending : Text) : List Text :=
  match trim ending with
  | '\x7b' :: r => [trim r.dropLast].filter (!·.isEmpty)
  | _ => []

/-- Enters a class declaration. -/
def declareClass (a : Analysis) (before : Int) (line : Nat) (h : ClassHeader) : Analysis :=
  let c := openClass h line a.depth
  if before < a.depth then { a with stack := c :: a.stack }
  else { a with finished := a.finished ++ [c] }

/-- Enters a method declaration. -/
def declareMethod (a : Analysis) (before : Int) (s : Signature) (annotations : List Text) :
    Analysis :=
  let info := methodInfo s annotations
  if before < a.depth then { a with method := some { info, openDepth := before } }
  else a.addMethod { info with rawBody := inlineBody s.ending }

/-- Enters the declaration that a text makes, if it makes one. -/
def declare? (a : Analysis) (before : Int) (line : Nat) (text : Text) (annotations : List Text) :
    Option Analysis :=
  match classHeader? (stripGenerics text) with
  | some h => some (a.declareClass before line h)
  | none =>
    match a.stack with
    | [] => none
    | current :: _ =>
      match signature? (some current.name) text with
      | some s => some (a.declareMethod before s annotations)
      | none => (field? text).map fun f => a.addField (fieldInfo f annotations)

/-- Whether the next statement stands directly in the body of the innermost class, or outside of
all classes. -/
def atMemberLevel (a : Analysis) (before : Int) : Bool :=
  match a.stack with
  | [] => true
  | current :: _ => before = current.bodyDepth

/-- A statement outside the bodies of methods. -/
def member (a : Analysis) (before : Int) (s : Statement) : Analysis :=
  if a.atMemberLevel before then
    let (found, text) := splitAnnotations s.text
    let annotations := a.pending ++ found
    if text.isEmpty then { a with pending := annotations }
    else
      let a := { a with pending := [] }
      (a.declare? before s.line text annotations).getD a.closeClasses
  else a.closeClasses

/-- A statement outside of all classes: a package or import declaration, or another statement. -/
def outside (a : Analysis) (before : Int) (s : Statement) : Analysis :=
  match package? s.text with
  | some name => { a with package := name }
  | none =>
    match import? s.text with
    | some name => { a with imports := a.imports ++ [name] }
    | none => a.member before s

def step (a : Analysis) (s : Statement) : Analysis :=
  if s.isComment then
    { a with method := a.method.map fun m => { m with body := m.body ++ s.rawLines } }
  else
    let before := a.depth
    let a := { a with depth := before + s.balance }
    match a.method with
    | some m => a.inMethod m s
    | none => if a.stack.isEmpty then a.outside before s else a.member before s

def record (a : Analysis) (module : Option Text) (c : OpenClass) : ClassInfo :=
  ClassInfo.classified
    { name := c.name, package := a.package, parent := c.parent, interfaces := c.interfaces,
      fields := c.fields, methods := c.methods, imports := a.imports, module := module }

/-- The records of all classes in source order; open classes are finished from the innermost on. -/
def records (a : Analysis) (module : Option Text) : List ClassInfo :=
  ((a.finished ++ a.stack).mergeSort fun c d => decide (c.line ≤ d.line)).map (a.record module)

end Analysis

def Java.Document.classes (d : Document) (module : Option Text := none) : List ClassInfo :=
  (d.statements.foldl Analysis.step {}).records module

end Restage
