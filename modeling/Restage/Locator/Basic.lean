import Restage.Text.Case
import Restage.Text.Quoted
import Restage.Table

/-!
# Locators

A locator says how to find an element of a page: the kind of the search and the value to search for,
with an optional description.  Kinds are written in several spellings; `Kind.ofToken` knows them all
and takes everything else for `unknown`.  Only an unknown locator may have an empty value.
-/

namespace Restage.Locator

open Text

/-- How an element is searched for. -/
inductive Kind where
  | xpath
  | css
  | id
  | name
  | linkText
  | partialLinkText
  | className
  | tagName
  | text
  | role
  | label
  | placeholder
  | alt
  | title
  | unknown
  deriving DecidableEq, Repr

namespace Kind

def all : List Kind :=
  [xpath, css, id, name, linkText, partialLinkText, className, tagName, text, role, label,
   placeholder, alt, title, unknown]

def spelling : Kind → Text
  | xpath => "xpath"
  | css => "css"
  | id => "id"
  | name => "name"
  | linkText => "linkText"
  | partialLinkText => "partialLinkText"
  | className => "className"
  | tagName => "tagName"
  | text => "text"
  | role => "role"
  | label => "label"
  | placeholder => "placeholder"
  | alt => "alt"
  | title => "title"
  | unknown => "unknown"

def ofSpelling? (t : Text) : Option Kind := all.find? (·.spelling = t)

/-- The spellings that are understood, in lower case. -/
def aliases : List (Text × Kind) :=
  [("xpath", xpath), ("css", css), ("id", id), ("name", name), ("linktext", linkText),
   ("partiallinktext", partialLinkText), ("classname", className), ("tagname", tagName),
   ("text", text), ("role", role), ("label", label), ("placeholder", placeholder), ("alt", alt),
   ("title", title), ("unknown", unknown), ("cssselector", css), ("css_selector", css),
   ("link", linkText), ("link_text", linkText), ("partiallink", partialLinkText),
   ("partial_link_text", partialLinkText), ("class", className), ("class_name", className),
   ("tag", tagName), ("tag_name", tagName), ("alttext", alt), ("aria-label", label)]

/-- The kind that a token spells, in any letter case and with blanks around it. -/
def ofToken (token : Text) : Kind := (Table.get? aliases (lower (trim token))).getD unknown

end Kind

/-- What identifies an element. -/
structure Descriptor where
  kind : Kind
  value : Text
  description : Option Text := none
  deriving DecidableEq, Repr

/-- Why there is no such locator. -/
inductive Error where
  /-- A locator of a known kind has no value. -/
  | missingValue (kind : Kind)
  | unknownKind (spelling : Text)
  deriving DecidableEq, Repr

def Error.message : Error → Text
  | .missingValue kind => "locator of type '" ++ kind.spelling ++ "' needs a value"
  | .unknownKind spelling => quoted spelling ++ " is not a valid LocatorType"

namespace Descriptor

def unknown (value : Text) (description : Option Text := none) : Descriptor :=
  ⟨.unknown, value, description⟩

/-- The locator of the given parts; a known kind needs a value. -/
def make (kind : Kind) (value : Text) (description : Option Text) : Except Error Descriptor :=
  if value.isEmpty ∧ kind ≠ .unknown then .error (.missingValue kind)
  else .ok ⟨kind, value, description⟩

/-- The locator of the given parts, the kind by its exact spelling. -/
def ofSpelling (spelling value : Text) (description : Option Text) : Except Error Descriptor :=
  match Kind.ofSpelling? spelling with
  | some kind => make kind value description
  | none => .error (.unknownKind spelling)

/-- The locator whose kind is given by a token; without a known kind or a value it is unknown. -/
def ofToken (token value : Text) (description : Option Text := none) : Descriptor :=
  let kind := Kind.ofToken token
  if kind = .unknown ∨ value.isEmpty then .unknown value description
  else ⟨kind, value, description⟩

end Descriptor

end Restage.Locator
