import Restage.Java.Declaration

/-!
# Class records

What the analysis of a document keeps of a class: its members with their raw bodies, the classes it
builds on, and the roles that it plays.  Roles are independent of each other; `Project/Roles.lean`
derives them.
-/

namespace Restage

open Text

/-- The roles of a class; more than one may hold. -/
structure Roles where
  isPageObject : Bool := false
  isException : Bool := false
  isStepDefinition : Bool := false
  isUtility : Bool := false
  isElementWrapper : Bool := false
  deriving DecidableEq, Repr

/-- A field of a class. -/
structure FieldInfo where
  name : Text
  type : Text
  annotations : List Text := []
  initial : Option Text := none
  isStatic : Bool := false
  deriving DecidableEq, Repr

/-- A method of a class. -/
structure MethodInfo where
  name : Text
  result : Text
  parameters : List Java.Parameter := []
  visibility : Text := "package"
  isStatic : Bool := false
  annotations : List Text := []
  rawBody : List Text := []
  /-- The phrase of the step annotation, if there is one. -/
  stepDescription : Option Text := none
  isConstructor : Bool := false
  deriving DecidableEq, Repr

/-- A class. -/
structure ClassInfo where
  name : Text
  package : Text := []
  /-- The class that it extends. -/
  parent : Option Text := none
  interfaces : List Text := []
  fields : List FieldInfo := []
  methods : List MethodInfo := []
  imports : List Text := []
  roles : Roles := {}
  /-- The module that the class was read from. -/
  module : Option Text := none
  deriving DecidableEq, Repr

def locatorAnnotations : List Text := ["FindBy", "FindBys", "FindAll"]

def elementTypes : List Text :=
  ["WebElement", "QAFWebElement", "QAFExtendedWebElement", "QAFWebComponent", "ExtendedWebElement"]

/-- Reads a generic argument list of one dotted name. -/
def singleArgument? : Text → Option Text
  | '<' :: r => do
    let (name, r) ← run? Java.isDotted (blanks r)
    let _ ← literal? ">" (blanks r)
    some name
  | _ => none

namespace FieldInfo

/-- The type of a field's elements: the one argument of a generic type, else the type without its
generic arguments; array brackets and the package are left out. -/
def elementType (f : FieldInfo) : Text :=
  let base := ((suffixes f.type).findSome? singleArgument?).getD (Java.stripGenerics f.type)
  afterLast '.' (trim (exchangePair '[' ']' [] base))

def hasLocatorAnnotation (f : FieldInfo) : Bool :=
  f.annotations.any fun a => locatorAnnotations.contains (Java.annotationName a)

end FieldInfo

namespace ClassInfo

def properMethods (c : ClassInfo) : List MethodInfo := c.methods.filter (!·.isConstructor)

def methodNames (c : ClassInfo) : List Text := c.properMethods.map (·.name)

end ClassInfo

end Restage
