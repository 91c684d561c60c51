import Restage.Conversion.Walk.Basic

/-!
# Classes

A class becomes an exception, a set of step registrations, or a class around a page, by its roles.
The context learns what the body of the class can refer to.
-/

namespace Restage.Conversion

open Text Java TypeScript

def stepsImport : Text := "import \x7b createBdd \x7d from 'playwright-bdd';"

def stepsBinding : Text := "const \x7b Given, When, Then, Step \x7d = createBdd();"

/-- How a class with the given roles is converted. -/
def Style.ofRoles (r : Roles) : Style :=
  if r.isException then .exception else if r.isStepDefinition then .steps else .page

/-- The methods of a class that become functions of the module. -/
def functionNames (info : ClassInfo) : List Text :=
  (info.properMethods.filter (·.stepDescription.isNone)).map (·.name)

def classContext (l : Lookup) (info : ClassInfo) (style : Style) (ctx : Context) : Context :=
  let ancestors := l.ancestors info
  { ctx with
    className := if style = .steps then none else some info.name
    ancestors
    accessors := l.elementFields info ++ ancestors.flatMap l.elementFields
    methodNames := info.methodNames
    staticMethods := (info.properMethods.filter (·.isStatic)).map (·.name)
    functions := if style = .steps then functionNames info else [] }

namespace Walk

/-- Writes the header and the constructor of a class; the scope of the class stays open. -/
def writeClass (w : Walk) (name : Text) (base : Option Text) (fields : List Text)
    (parameter : Text) (constructor : List Text) : Walk :=
  let parent : Text := (base.map fun (b : Text) => " extends " ++ b).getD []
  w.onSheet fun sheet =>
    let sheet := sheet.openScope ("export class " ++ name ++ parent ++ " \x7b")
    let sheet := if fields.isEmpty then sheet else (sheet.emitAll fields).blank
    ((sheet.openScope ("constructor(" ++ parameter ++ ") \x7b")).emitAll constructor).closeScope

def openException (w : Walk) (l : Lookup) (info : ClassInfo) : Walk :=
  let parent := (l.parent? info).filter fun p => (l.roles p).isException
  let w := match parent with
    | some p => w.onContext (·.importClass p.name)
    | none => w
  w.writeClass info.name (some ((parent.map (·.name)).getD "Error")) [] "message?: string"
    ["super(message);", "this.name = '" ++ info.name ++ "';"]

def openPage (w : Walk) (l : Lookup) (info : ClassInfo) : Walk :=
  match (l.parent? info).filter fun p => l.isPageType p.name with
  | some p =>
    (w.onContext (·.importClass p.name)).writeClass info.name (some p.name) [] "page: Page"
      ["super(page);"]
  | none =>
    w.writeClass info.name none ["readonly page: Page;"] "page: Page" ["this.page = page;"]

/-- Binds the step keywords, once in a file. -/
def openSteps (w : Walk) : Walk :=
  if w.bound then w
  else { (w.onContext (·.addImport stepsImport)).onSheet (fun s => (s.emit stepsBinding).blank) with
         bound := true }

/-- A class declaration.  A body that ends on the same line is left at once. -/
def openClass (w : Walk) (l : Lookup) (s : Statement) (h : ClassHeader) : Walk :=
  if h.kind ≠ "class".toList then
    (w.diagnose s ("unsupported " ++ h.kind ++ " declaration")).enter .skipped
  else
    let info := (l.own? h.name).getD { name := h.name }
    let style := Style.ofRoles (l.roles info)
    let w := w.onContext (classContext l info style)
    let w := match style with
      | .exception => w.openException l info
      | .steps => w.openSteps
      | .page => w.openPage l info
    if startsWith "\x7d" (trim h.rest) then
      if style = .steps then w else w.onSheet (·.closeScope)
    else w.enter (.classBody info style)

end Walk

end Restage.Conversion
