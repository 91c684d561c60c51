import Restage.Java.Annotation
import Restage.Java.TypeName

/-!
# Declarations

Shapes of the declarations that matter to page objects: packages, imports, classes, methods,
constructors and fields.  Each reader takes the text of one statement and gives the parts of the
declaration, or `none` when the statement is something else.  A statement may end with one line
feed.

Where a declaration can be read in more than one way (a modifier may also be taken for a type, a
generic list may end at several brackets, a parameter list at several parentheses) the readings are
tried from the longest to the shortest.
-/

namespace Restage.Java

open Text

/-! ## Words with a fixed meaning -/

/-- Words that are never the type or the name of a member. -/
def keywords : List Text :=
  ["return", "new", "else", "throw", "case", "if", "for", "while", "do",
   "switch", "catch", "try", "finally", "synchronized", "assert", "goto"]

/-- Modifiers that are never taken for a type. -/
def modifierWords : List Text :=
  ["public", "private", "protected", "static", "final", "abstract", "synchronized", "native",
   "default"]

def classModifiers : List Text :=
  ["public", "private", "protected", "abstract", "final", "static", "sealed"]

def constructorModifiers : List Text := ["public", "private", "protected"]

def fieldModifiers : List Text :=
  ["public", "private", "protected", "static", "final", "transient", "volatile"]

/-- Reads one of the given modifiers and the blanks after it. -/
def modifier? (choices : List Text) (t : Text) : Option Text :=
  (oneOf? choices t).bind fun (_, rest) => someBlanks? rest

/-- The texts that may follow the modifiers of a declaration, the one after the most modifiers
first.  The count bounds the number of modifiers. -/
def modifierEndsUpTo (choices : List Text) : Nat → Text → List Text
  | 0, t => [t]
  | n + 1, t =>
    match modifier? choices t with
    | some rest => modifierEndsUpTo choices n rest ++ [t]
    | none => [t]

/-- The texts that may follow the modifiers of a declaration, the one after the most modifiers
first. -/
def modifierEnds (choices : List Text) (t : Text) : List Text := modifierEndsUpTo choices t.length t

/-- How visible a member is: its first visibility modifier, or that of its package. -/
def visibility (modifiers : List Text) : Text :=
  (constructorModifiers.find? modifiers.contains).getD "package"

/-! ## Packages and imports -/

/-- The package that a statement declares. -/
def package? (t : Text) : Option Text := do
  let r ← (literal? "package" t).bind someBlanks?
  let (name, r) ← run? isDotted r
  let r ← literal? ";" (blanks r)
  if atEnd r then some name else none

/-- Reads an imported name and the end of the statement.  A name may end with `.*`. -/
def importedName? (t : Text) : Option Text := do
  let (name, r) ← run? isDotted t
  let (name, r) ← match r with
    | '*' :: rest => if name.length > 1 ∧ endsWith "." name then some (name ++ "*", rest) else none
    | _ => some (name, r)
  let r ← literal? ";" (blanks r)
  if atEnd r then some name else none

/-- The name that a statement imports. -/
def import? (t : Text) : Option Text := do
  let r ← (literal? "import" t).bind someBlanks?
  (((literal? "static" r).bind someBlanks?).bind importedName?).or (importedName? r)

/-! ## Classes -/

/-- The parts of a class declaration. -/
structure ClassHeader where
  /-- The modifiers as written, with the blanks after them. -/
  mods : Text
  /-- One of `class`, `interface`, `enum`. -/
  kind : Text
  name : Text
  /-- The classes after `extends`. -/
  extended : Option Text
  /-- The interfaces after `implements`. -/
  implemented : Option Text
  /-- What follows the opening brace. -/
  rest : Text
  deriving DecidableEq, Repr

/-- Reads the further names of a list, each after a comma.  The count bounds their number. -/
def moreNames : Nat → Text → Text
  | 0, t => t
  | n + 1, t =>
    match (literal? "," (blanks t)).bind fun r => run? isDotted (blanks r) with
    | some (_, rest) => moreNames n rest
    | none => t

/-- Reads a clause: blanks, a word, blanks and a comma-separated list of dotted names. -/
def clause? (word t : Text) : Option (Text × Text) := do
  let r ← someBlanks? t
  let r ← (literal? word r).bind someBlanks?
  let (_, rest) ← run? isDotted r
  let rest := moreNames rest.length rest
  some (consumed r rest, rest)

def optionalClause (word t : Text) : Option Text × Text :=
  match clause? word t with
  | some (names, rest) => (some names, rest)
  | none => (none, t)

/-- The class declaration of a text without generic argument lists. -/
def classHeader? (t : Text) : Option ClassHeader :=
  (modifierEnds classModifiers t).findSome? fun start => do
    let (kind, r) ← oneOf? ["class", "interface", "enum"] start
    let (name, r) ← (someBlanks? r).bind word?
    let (extended, r) := optionalClause "extends" r
    let (implemented, r) := optionalClause "implements" r
    let r ← literal? "\x7b" (blanks r)
    let rest ← lastLine? r
    some { mods := consumed t start, kind, name, extended, implemented, rest }

/-! ## Methods and constructors -/

/-- The parts of a method or constructor declaration. -/
structure Signature where
  /-- The modifiers as written, with the blanks after them. -/
  mods : Text
  /-- The return type; a constructor has none. -/
  result : Option Text
  name : Text
  /-- What stands between the parentheses. -/
  params : Text
  /-- A semicolon, or the opening brace and what follows it. -/
  ending : Text
  deriving DecidableEq, Repr

namespace Signature

def isConstructor (s : Signature) : Bool := s.result.isNone

def modifiers (s : Signature) : List Text := words s.mods

end Signature

/-- Whether a character may stand in the list of a `throws` clause. -/
def isThrown (c : Char) : Bool := isWord c || c == '.' || c == ',' || isBlank c

/-- Reads an optional `throws` clause and the blanks around it. -/
def throwsClause (t : Text) : Text :=
  match (literal? "throws" (blanks t)).bind (run? isThrown) with
  | some (c :: _ :: _, rest) => if isBlank c then rest else blanks t
  | _ => blanks t

def bodyEnding? : Text → Option Text
  | '\x7b' :: r => (lastLine? r).map ('\x7b' :: ·)
  | _ => none

/-- Reads the end of a declaration with or without a body. -/
def methodEnding? : Text → Option Text
  | ';' :: r => if atEnd r then some ";" else none
  | r => bodyEnding? r

/-- Reads a parameter list and the end of the declaration, given the text after the opening
parenthesis.  The list ends at the last parenthesis of its line that a declaration can end after. -/
def parameterList? (ending? : Text → Option Text) (t : Text) : Option (Text × Text) :=
  (cuts ')' t).reverse.findSome? fun (params, rest) =>
    if onOneLine params then (ending? (throwsClause rest)).map (params, ·) else none

/-- Reads a name, an opening parenthesis, a parameter list and the end of the declaration. -/
def nameAndParameters? (ending? : Text → Option Text) (t : Text) : Option (Text × Text × Text) := do
  let (name, r) ← word? t
  let r ← literal? "(" (blanks r)
  let (params, ending) ← parameterList? ending? r
  some (name, params, ending)

/-- Reads optional type parameters and the blanks after them. -/
def typeParameters (t : Text) : Text :=
  match t with
  | '<' :: r =>
    match r.dropWhile (· ≠ '>') with
    | _ :: rest => if r.head? = some '>' then t else (someBlanks? rest).getD t
    | [] => t
  | _ => t

def methodShape? (t : Text) : Option Signature :=
  (modifierEnds modifierWords t).findSome? fun start =>
    let typed := typeParameters start
    (typeEnds typed).findSome? fun rest => do
      let (name, params, ending) ← (someBlanks? rest).bind (nameAndParameters? methodEnding?)
      some { mods := consumed t start, result := some (consumed typed rest), name, params, ending }

def constructorShape? (t : Text) : Option Signature :=
  (modifierEnds constructorModifiers t).findSome? fun start => do
    let (name, params, ending) ← nameAndParameters? bodyEnding? start
    some { mods := consumed t start, result := none, name, params, ending }

/-- The method that a statement declares: a method shape whose type and name are no reserved
words. -/
def method? (t : Text) : Option Signature :=
  (methodShape? t).filter fun s =>
    !((s.result.any fun r => keywords.contains r || modifierWords.contains r)
      || keywords.contains s.name)

/-- The constructor of the named class, or the method, that a statement declares. -/
def signature? (className : Option Text) (t : Text) : Option Signature :=
  match className.filter (!·.isEmpty) with
  | none => method? t
  | some name => ((constructorShape? t).filter (·.name = name)).or (method? t)

/-! ## Fields -/

/-- The parts of a field declaration. -/
structure FieldHeader where
  /-- The modifiers as written, with the blanks after them. -/
  mods : Text
  type : Text
  name : Text
  initial : Option Text
  deriving DecidableEq, Repr

namespace FieldHeader

def modifiers (f : FieldHeader) : List Text := words f.mods

end FieldHeader

/-- Reads an optional initial value and the semicolon that ends a field declaration. -/
def fieldEnding? (t : Text) : Option (Option Text) :=
  match blanks t with
  | '=' :: r => (initialValue? r).map some
  | ';' :: r => if atEnd r then some none else none
  | _ => none

def fieldShape? (t : Text) : Option FieldHeader :=
  (modifierEnds fieldModifiers t).findSome? fun start =>
    (typeEnds start).findSome? fun rest => do
      let (name, r) ← (someBlanks? rest).bind word?
      let initial ← fieldEnding? r
      some { mods := consumed t start, type := consumed start rest, name, initial }

/-- The field that a statement declares: a field shape whose type is no reserved word. -/
def field? (t : Text) : Option FieldHeader :=
  (fieldShape? t).filter fun f => !(keywords.contains f.type || modifierWords.contains f.type)

/-! ## Parameters -/

/-- A parameter of a method. -/
structure Parameter where
  name : Text
  type : Text
  deriving DecidableEq, Repr

/-- The text with each `...` made an array suffix. -/
def spreadDots : Text → Text
  | '.' :: '.' :: '.' :: r => "[] " ++ spreadDots r
  | [] => []
  | c :: r => c :: spreadDots r

/-- The parameter that a declaration such as `final String user` declares. -/
def parameter? (t : Text) : Option Parameter :=
  let tokens := (words (spreadDots (splitAnnotations t).2)).filter (· ≠ "final".toList)
  match tokens.reverse with
  | name :: type :: types => some { name, type := join " " (type :: types).reverse }
  | _ => none

def parameters (t : Text) : List Parameter := (splitArguments t).filterMap parameter?

end Restage.Java
