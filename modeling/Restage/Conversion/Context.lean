import Restage.Pattern.Action
import Restage.Project.Basic

/-!
# Conversion context

What the conversion of a statement depends on and what it may change: the project and the class
around the statement, the names in scope, how the page and the object itself are referred to, the
imports that the output needs, the actions recorded in the current method and the diagnostics.
-/

namespace Restage.Conversion

open Text

/-- A source line that was left out or commented out. -/
structure Diagnostic where
  line : Int
  reason : Text
  text : Text
  deriving DecidableEq, Repr

/-- A diagnostic as it stands in the report. -/
def Diagnostic.message (d : Diagnostic) : Text :=
  "line " ++ ofInt d.line ++ ": " ++ d.reason ++ ": " ++ d.text

/-- The state of the conversion of one file. -/
structure Context where
  project : Option Project := none
  module : Option Text := none
  className : Option Text := none
  inMethod : Bool := false
  /-- The element fields of the class and its ancestors. -/
  accessors : List Text := []
  imports : List Text := []
  methodNames : List Text := []
  staticMethods : List Text := []
  /-- The methods that became functions of the module. -/
  functions : List Text := []
  ancestors : List ClassInfo := []
  parameters : List Text := []
  /-- The local variables and their types. -/
  locals : Table Text := []
  pageRef : Text := "this.page"
  /-- How the object itself is referred to; there is none in a static method or a function. -/
  selfRef : Option Text := some "this"
  actions : List Action := []
  diagnostics : List Diagnostic := []
  deriving DecidableEq, Repr

namespace Context

def scope (ctx : Context) : List Text := ctx.parameters ++ ctx.locals.names

def addImport (ctx : Context) (statement : Text) : Context :=
  { ctx with imports := addNew ctx.imports statement }

/-- The import of a class of the project that lives in another module. -/
def importOf? (ctx : Context) (name : Text) : Option Text := do
  let project ← ctx.project
  if ctx.className = some name ∨ project.modules.get? name = ctx.module then none
  else
    let path ← project.specifier? name ctx.module
    some ("import \x7b " ++ name ++ " \x7d from '" ++ path ++ "';")

/-- Imports a class of the project, if it lives in another module. -/
def importClass (ctx : Context) (name : Text) : Context :=
  match ctx.importOf? name with
  | some statement => ctx.addImport statement
  | none => ctx

/-- Starts the body of a method.  An empty reference to the object is none. -/
def enterMethod (ctx : Context) (parameters : List Text) (pageRef : Text) (selfRef : Option Text) :
    Context :=
  { ctx with inMethod := true, parameters, locals := [], pageRef,
             selfRef := selfRef.filter (!·.isEmpty), actions := [] }

/-- Ends the body of a method; its actions are given back. -/
def leaveMethod (ctx : Context) : List Action × Context :=
  (ctx.actions,
   { ctx with inMethod := false, parameters := [], locals := [], pageRef := "this.page",
              selfRef := some "this", actions := [] })

def record (ctx : Context) (action : Text) (target value : Option Text := none) : Context :=
  { ctx with actions := ctx.actions ++ [{ action, target, value }] }

/-- Declares a local variable. -/
def declare (ctx : Context) (name type : Text) : Context :=
  { ctx with locals := ctx.locals.put name type }

/-- Notes a source line that was left out or commented out. -/
def diagnose (ctx : Context) (line : Int) (reason text : Text) : Context :=
  { ctx with diagnostics := ctx.diagnostics ++ [{ line, reason, text }] }

/-- Whether a class of the project is a page object. -/
def isPageClass (ctx : Context) (name : Text) : Bool :=
  ctx.project.any fun p => (p.roles name).isPageObject

end Context

end Restage.Conversion
