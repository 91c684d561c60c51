import Restage.Locator.Call
import Restage.Proofs.Text.Readers
import Restage.Proofs.TypeScript.LiteralDecoding

/-!
# Reading locator calls

A locator is written as one call with one or two literals.  To say what a call means it has to be
read without reference to the printer.  `readCall?` does that: a method, an opening parenthesis, a
literal, at most one option, and a closing parenthesis at the very end.  A literal is read up to the
first quote that no backslash takes, and stands for the pieces that its body decodes to.

`readCall?_call` says what every call reads as: its literals are those of the selector, or of the
role and the accessible name.
-/

namespace Restage.Locator

open Text TypeScript List Option

variable {quote : Char} (params : List Text) (value : Text)

/-! ## The reader -/

/-- Reads a literal: its pieces, and what follows it. -/
def readLiteral? : Text → Option (List Piece × Text)
  | quote :: r =>
    if quote = '\x27' ∨ quote = backtick then do
      let (body, rest) ← bodyEnd? quote r
      let ps ← decodeBody? quote body
      some (ps, rest)
    else none
  | [] => none

/-- What a call may have beside its first argument. -/
inductive CallOption where
  | nothing
  /-- Parts of a text are found too. -/
  | inexact
  /-- The accessible name. -/
  | named (name : List Piece)
  deriving DecidableEq, Repr

/-- A call as it is read: its method, the pieces of its first argument and its option. -/
structure CallParts where
  method : Text
  first : List Piece
  option : CallOption
  deriving DecidableEq, Repr

def readOption? (t : Text) : Option (CallOption × Text) :=
  match literal? ", \x7b " t with
  | none => some (.nothing, t)
  | some r =>
    match literal? "exact: false \x7d" r with
    | some r => some (.inexact, r)
    | none => do
      let r ← literal? "name: " r
      let (name, r) ← readLiteral? r
      let r ← literal? " \x7d" r
      some (.named name, r)

/-- Reads a call; nothing may follow it. -/
def readCall? (t : Text) : Option CallParts := do
  let (method, r) ← word? t
  let r ← literal? "(" r
  let (first, r) ← readLiteral? r
  let (option, r) ← readOption? r
  if r = [')'] then some ⟨method, first, option⟩ else none

/-! ## Literals in a call -/

lemma bodyEnd?_cons {c : Char} (hc : c ≠ '\\') (u : Text) : bodyEnd? quote (c :: u) =
    if c = quote then some ([], u) else (bodyEnd? quote u).map fun (b, e) => (c :: b, e) := by
  rw [bodyEnd?.eq_3 quote c u (fun _ _ h => absurd h hc), if_neg hc]

/-- The bodies of literals: a quote stands in them only after a backslash. -/
inductive IsBody (quote : Char) : Text → Prop
  | nil : IsBody quote []
  | escaped {c : Char} {t : Text} : IsBody quote t → IsBody quote ('\\' :: c :: t)
  | char {c : Char} {t : Text} : c ≠ quote → c ≠ '\\' → IsBody quote t → IsBody quote (c :: t)

lemma bodyEnd?_eq_some_iff (hquote : quote ≠ '\\') {t body rest : Text} :
    bodyEnd? quote t = some (body, rest) ↔ IsBody quote body ∧ t = body ++ quote :: rest := by
  constructor
  · intro h
    induction t using bodyEnd?.induct quote generalizing body with
    | case1 => cases h
    | case2 c t ih =>
      obtain ⟨⟨found, after⟩, hfound, h⟩ := map_eq_some_iff.1 h
      cases h
      obtain ⟨hbody, rfl⟩ := ih hfound
      exact ⟨.escaped hbody, rfl⟩
    | case3 t _ =>
      rw [bodyEnd?_cons hquote, if_pos rfl] at h
      cases h
      exact ⟨.nil, rfl⟩
    | case4 t hend hne =>
      rw [bodyEnd?.eq_3 quote _ t hend, if_neg hne] at h
      cases h
    | case5 c t _ hne hslash ih =>
      rw [bodyEnd?_cons hslash, if_neg hne] at h
      obtain ⟨⟨found, after⟩, hfound, h⟩ := map_eq_some_iff.1 h
      cases h
      obtain ⟨hbody, rfl⟩ := ih hfound
      exact ⟨.char hne hslash hbody, rfl⟩
  · rintro ⟨hbody, rfl⟩
    induction hbody with
    | nil => exact (bodyEnd?_cons hquote rest).trans (if_pos rfl)
    | escaped _ ih => rw [cons_append, cons_append, bodyEnd?, ih, map_some]
    | char hne hslash _ ih => rw [cons_append, bodyEnd?_cons hslash, if_neg hne, ih, map_some]

/-- **A literal is read** as the pieces of its value, whatever follows it. -/
lemma readLiteral?_literal (template : Bool) (rest : Text) :
    readLiteral? (literal params value template ++ rest) = some (pieces params value, rest) := by
  obtain ⟨quote, body, hquote, hliteral, hend, hdecode⟩ := exists_body params value template
  have hslash : quote ≠ '\\' := by rcases hquote with rfl | rfl <;> decide
  have hbody := ((bodyEnd?_eq_some_iff hslash).1 hend).1
  have hread : bodyEnd? quote (body ++ [quote] ++ rest) = some (body, rest) :=
    (bodyEnd?_eq_some_iff hslash).2 ⟨hbody, by simp⟩
  rw [hliteral, cons_append, cons_append, readLiteral?, if_pos hquote]
  simp only [hread, hdecode, bind_eq_bind, bind_some]

lemma readCall?_eq {method : Text} (hmethod : isWordText method = true) (params : List Text)
    (value : Text) (template : Bool) {t : Text} {option : CallOption}
    (hoption : readOption? t = some (option, [')'])) :
    readCall? (method ++ "(" ++ literal params value template ++ t) =
      some ⟨method, pieces params value, option⟩ := by
  have hword : word? (method ++ ("(" ++ (literal params value template ++ t))) =
      some (method, "(" ++ (literal params value template ++ t)) := by
    refine word?_append hmethod ?_
    rintro _ ⟨⟩
    decide
  rw [append_assoc, append_assoc]
  simp only [readCall?, hword, literal?_append, readLiteral?_literal, hoption, bind_eq_bind,
    bind_some, if_true]

/-! ## Locator calls -/

/-- The method that finds elements of a kind. -/
def Kind.method : Kind → Text
  | .linkText | .partialLinkText | .text => "getByText"
  | .role => "getByRole"
  | .label => "getByLabel"
  | .placeholder => "getByPlaceholder"
  | .alt => "getByAltText"
  | .title => "getByTitle"
  | .xpath | .css | .id | .name | .className | .tagName | .unknown => "locator"

/-- The selector that is searched for. -/
def Kind.selector (params : List Text) (value : Text) : Kind → Text
  | .xpath => "xpath=" ++ value
  | .id => "#" ++ value
  | .className => "." ++ value
  | .name => nameSelector params value
  | _ => value

/-- The parts of a call that finds elements by role. -/
def roleParts (params : List Text) (value : Text) : CallParts :=
  match cutFirst? ':' value with
  | some (role, name) => ⟨"getByRole", pieces params role, .named (pieces params name)⟩
  | none => ⟨"getByRole", pieces params value, .nothing⟩

lemma roleParts_of_some {params : List Text} {value role name : Text}
    (hcut : cutFirst? ':' value = some (role, name)) :
    roleParts params value = ⟨"getByRole", pieces params role, .named (pieces params name)⟩ := by
  unfold roleParts
  rw [hcut]

lemma roleParts_of_none {params : List Text} {value : Text} (hcut : cutFirst? ':' value = none) :
    roleParts params value = ⟨"getByRole", pieces params value, .nothing⟩ := by
  unfold roleParts
  rw [hcut]

def callParts (params : List Text) (value : Text) : Kind → CallParts
  | .role => roleParts params value
  | .partialLinkText => ⟨"getByText", pieces params value, .inexact⟩
  | kind => ⟨kind.method, pieces params (kind.selector params value), .nothing⟩

lemma readCall?_callWith {method : Text} (hmethod : isWordText method = true) (params : List Text)
    (value : Text) : readCall? (callWith method params value) = some ⟨method, pieces params value, .nothing⟩ :=
  readCall?_eq hmethod params value false rfl

lemma readCall?_roleCall :
    readCall? (roleCall params value) = some (roleParts params value) := by
  rcases hcut : cutFirst? ':' value with _ | ⟨role, name⟩
  · rw [roleParts_of_none hcut, roleCall, hcut]
    exact readCall?_callWith (by decide) params value
  · have hnamed : literal? "exact: false \x7d" ("name: " ++ (literal params name ++ " \x7d)")) = none := by
      rfl
    have hend : literal? " \x7d" (" \x7d)" : Text) = some [')'] := rfl
    have hoption : readOption? (", \x7b " ++ ("name: " ++ (literal params name ++ " \x7d)"))) =
        some (.named (pieces params name), [')']) := by
      simp only [readOption?, literal?_append, hnamed, readLiteral?_literal, hend, bind_eq_bind, bind_some]
    have hopen : "getByRole(".toList = "getByRole".toList ++ "(".toList := rfl
    have hname : ", \x7b name: ".toList = ", \x7b ".toList ++ "name: ".toList := rfl
    have hread := readCall?_eq (by decide : isWordText "getByRole" = true) params role false hoption
    rw [roleParts_of_some hcut, roleCall, hcut]
    rw [hopen, hname]
    simpa only [append_assoc] using hread

/-- **Every call is read** as the parts that it was written from. -/
lemma readCall?_call (kind : Kind) (value : Text) (params : List Text) :
    readCall? (call kind value params) = some (callParts params value kind) := by
  cases kind with
  | role => exact readCall?_roleCall params value
  | xpath =>
    have hread := readCall?_eq (by decide : isWordText "locator" = true) params ("xpath=" ++ value)
      true (t := ")") rfl
    exact hread
  | partialLinkText =>
    have hread := readCall?_eq (by decide : isWordText "getByText" = true) params value false
      (t := ", \x7b exact: false \x7d)") rfl
    exact hread
  | _ => exact readCall?_callWith (by decide) params _

end Restage.Locator
