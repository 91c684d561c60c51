import Restage.Json.Reader
import Restage.Locator.Basic

/-!
# Reading locators

A locator is written as a string, either `kind=value` or a JSON object with a `locator` member, an
optional `desc` member, and possibly other members named for kinds.  The object may have lost one
level of quoting, so it is tried as it stands, with escaped quotes undone and with doubled quotes
undone.  When no reading is an object with a locator, the `"locator": "..."` pair is looked for in
the text; when nothing succeeds the locator is unknown and carries the text as it was given.
-/

namespace Restage.Locator

open Text

/-- Reads `kind=value`, cut at the first equals sign. -/
def ofPair? (t : Text) (description : Option Text := none) : Option Descriptor :=
  (cutFirst? '=' t).bind fun (token, value) =>
    let kind := Kind.ofToken token
    if kind = .unknown ∨ value.isEmpty then none else some ⟨kind, value, description⟩

/-- The locator of a non-empty locator string inside a structured one. -/
def ofInner (t : Text) (description : Option Text) : Descriptor :=
  (ofPair? t description).getD (.unknown t description)

/-! ## Structured locators -/

/-- The texts that may hold the object: the given one, and those with a level of quoting undone. -/
def candidates (t : Text) : List Text :=
  [t, exchangePair '\\' '"' ['"'] t]
    ++ (if occursIn ['"', '"'] t then [exchangePair '"' '"' ['"'] t] else [])

/-- The members of the object that a text holds. -/
def members? (t : Text) : Option (Table Json.Value) :=
  match Json.read t with
  | .ok (.object members) => some members
  | _ => none

/-- The members that name a kind of search, in the order in which they are looked at. -/
def memberKinds : List (Text × Kind) :=
  [("id", .id), ("xpath", .xpath), ("css", .css), ("name", .name), ("linkText", .linkText),
   ("partialLinkText", .partialLinkText), ("tagName", .tagName)]

def someText? (v : Json.Value) : Option Text := v.text?.filter (!·.isEmpty)

/-- The locator string of a structured locator: a string, or the first string of a list. -/
def locatorText? : Json.Value → Option Text
  | .array items => (items.findSome? Json.Value.text?).filter (!·.isEmpty)
  | v => someText? v

/-- The locator of an object: its `locator` member, or else the first member named for a kind. -/
def ofMembers? (members : Table Json.Value) : Option Descriptor :=
  let description := (members.get? "desc").bind someText?
  match (members.get? "locator").bind locatorText? with
  | some inner => some (ofInner inner description)
  | none => memberKinds.findSome? fun (key, kind) =>
    ((members.get? key).bind someText?).map fun value => ⟨kind, value, description⟩

/-! ## The pair in running text -/

/-- Reads a `"key": "..."` pair: the text between the last two quotes. -/
def quotedPair? (key t : Text) : Option Text := do
  let r ← literal? (['"'] ++ key ++ ['"']) t
  let r ← literal? ":" (blanks r)
  let r ← literal? ['"'] (blanks r)
  let (body, _) ← stringTail? r
  some body

def findPair? (key t : Text) : Option Text := (suffixes t).findSome? (quotedPair? key)

def ofQuotedPair? (t : Text) : Option Descriptor :=
  let unescaped := exchangePair '\\' '"' ['"'] t
  let description := (findPair? "desc" unescaped).filter (!·.isEmpty)
  ((findPair? "locator" unescaped).filter (!·.isEmpty)).map (ofInner · description)

/-! ## All forms -/

/-- Whether a trimmed locator string is meant to be structured. -/
def looksStructured (t : Text) : Bool :=
  startsWith "\x7b" t || occursIn (['"'] ++ "locator" ++ ['"']) t

/-- The locator that a trimmed locator string is understood as, if it is. -/
def understood? (t : Text) : Option Descriptor :=
  if looksStructured t then
    (((candidates t).findSome? members?).bind ofMembers?).or (ofQuotedPair? t)
  else ofPair? t

def parse (raw : Text) : Descriptor := (understood? (trim raw)).getD (.unknown raw)

end Restage.Locator
