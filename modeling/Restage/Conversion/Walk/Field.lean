import Restage.Conversion.FieldLocator
import Restage.Conversion.Walk.Basic
import Restage.Locator.Call
import Restage.TypeScript.TypeName

/-!
# Fields

An element field becomes an accessor that finds the element on the page.  A field with a literal
value becomes a property, or a constant of the module in a class of steps.
-/

namespace Restage.Conversion

open Text Java TypeScript

def propertyLine (style : Style) (f : FieldHeader) (info : FieldInfo) (value : Text) : Text :=
  let value := plainLiteral value
  if style = .steps then "const " ++ info.name ++ " = " ++ value ++ ";"
  else
    let keyword : Text := if info.isStatic then "static " else []
    let readonly : Text := if f.modifiers.contains "final" then "readonly " else []
    keyword ++ readonly ++ info.name ++ ": " ++ typeName info.type ++ " = " ++ value ++ ";"

def writeAccessor (name : Text) (d : Locator.Descriptor) (sheet : Sheet) : Sheet :=
  let sheet := sheet.blank
  let sheet := match d.description.filter (!·.isEmpty) with
    | some description => sheet.comment description
    | none => sheet
  ((sheet.openScope ("async " ++ name ++ "(): Promise<Locator> \x7b")).emit
    ("return this.page." ++ d.call [] ++ ";")).closeScope

namespace Walk

def elementField (w : Walk) (s : Statement) (style : Style) (info : FieldInfo) : Walk :=
  if style = .steps then w.diagnose s "element field outside page object"
  else match fieldLocator? info with
    | some d => w.onSheet (writeAccessor info.name d)
    | none =>
      (w.diagnose s "element field without locator").onSheet
        (writeAccessor info.name (Locator.Descriptor.unknown info.name))

def field (w : Walk) (l : Lookup) (s : Statement) (style : Style) (f : FieldHeader)
    (annotations : List Text) : Walk :=
  let info := Analysis.fieldInfo f annotations
  if l.isElementField info then w.elementField s style info
  else
    let value := trim (info.initial.getD [])
    if isLiteral value then w.onSheet (·.emit (propertyLine style f info value))
    else w.diagnose s "unsupported field"

end Walk

end Restage.Conversion
