import Restage.Text.Scan

/-!
# TypeScript string literals

A locator value may hold concatenation idioms: `" + name + "` in the middle or `" + name` at the
end, with either kind of quote.  Where `name` is a parameter the idiom is a slot, and the value is a
sequence of pieces, text and slots alternating, text first and last.

A value is written between single quotes, or as a template literal between backticks when it has a
slot, when it holds a single quote, or when a template is asked for.  The quote and the backslash
are escaped, and in a template also the start of a slot.
-/

namespace Restage.TypeScript

open Text

/-- A piece of a value: literal text, or a slot for a parameter. -/
inductive Piece where
  | text (t : Text)
  | slot (name : Text)
  deriving DecidableEq, Repr

namespace Piece

def isSlot : Piece → Bool
  | .slot _ => true
  | .text _ => false

end Piece

/-- Reads what follows the name in a concatenation idiom opened by `quote`: a plus sign and the same
quote, or the end. -/
def idiomEnd? (quote : Char) (t : Text) : Option Text :=
  match t with
  | '+' :: r =>
    match blanks r with
    | q :: rest => if q = quote then some rest else none
    | [] => none
  | [] => some []
  | _ => none

/-- Reads a concatenation idiom: its name, and what follows it. -/
def idiom? : Text → Option (Text × Text)
  | quote :: r =>
    if quote = '"' ∨ quote = '\x27' then do
      let r ← literal? "+" (blanks r)
      let (name, r) ← name? (blanks r)
      let rest ← idiomEnd? quote (blanks r)
      some (name, rest)
    else none
  | [] => none

/-- Reads a concatenation idiom: its name and its whole text, and what follows it. -/
def idiomText? (t : Text) : Option ((Text × Text) × Text) :=
  (idiom? t).map fun (name, rest) => ((name, consumed t rest), rest)

/-- The pieces of a scanned value; `text` holds the current text backwards.  Only idioms whose name
is a parameter make slots. -/
def collectPieces (params : List Text) (text : Text) : List (Char ⊕ Text × Text) → List Piece
  | [] => [.text text.reverse]
  | .inl c :: r => collectPieces params (c :: text) r
  | .inr (name, whole) :: r =>
    if params.contains name then .text text.reverse :: .slot name :: collectPieces params [] r
    else collectPieces params (whole.reverse ++ text) r

/-- The pieces of a value around its concatenation idioms. -/
def pieces (params : List Text) (value : Text) : List Piece :=
  collectPieces params [] (scan idiomText? value)

def isDynamic (params : List Text) (value : Text) : Bool := (pieces params value).any Piece.isSlot

def backtick : Char := '\x60'

def escape (quote : Char) (t : Text) : Text :=
  let escaped := exchange quote ['\\', quote] (exchange '\\' ['\\', '\\'] t)
  if quote = backtick then exchangePair '$' '\x7b' ['\\', '$', '\x7b'] escaped else escaped

def templatePiece : Piece → Text
  | .text t => escape backtick t
  | .slot name => ['$', '\x7b'] ++ name ++ ['\x7d']

def literal (params : List Text) (value : Text) (template : Bool := false) : Text :=
  if template || isDynamic params value || value.contains '\x27' then
    backtick :: (pieces params value).flatMap templatePiece ++ [backtick]
  else '\x27' :: escape '\x27' value ++ ['\x27']

end Restage.TypeScript
