import Mathlib.Tactic.Common
import Restage.Json.Reader
import Restage.Json.Writer

/-!
# Reading back written strings

A written string is read in two steps.  The code units that its characters and escapes stand for are
those of the text, a character beyond the basic plane giving two (`stringUnits?_write`), and joining
the units gives the text again, since no character is half of a pair by itself (`joinUnits_units`).
So the reader is inverse to the writer on strings, and on objects whose members are strings
(`read_write_strings`).
-/

namespace Restage.Json

open Text List

/-- The code units of a character. -/
def units (c : Char) : List Nat :=
  if c.toNat < 0x10000 then [c.toNat]
  else [0xD800 + (c.toNat - 0x10000) / 0x400, 0xDC00 + (c.toNat - 0x10000) % 0x400]

/-! ## Escapes -/

lemma hexDigit?_hexChar : ∀ n < 16, hexDigit? (hexChar n) = some n := by
  decide

lemma stringUnits?_unitEscape {n : Nat} (hn : n < 0x10000) (rest : Text) :
    stringUnits? (unitEscape n ++ rest) = (stringUnits? rest).map (Prod.map (n :: ·) id) := by
  have hdigits : 4096 * (n / 4096 % 16) + 256 * (n / 256 % 16) + 16 * (n / 16 % 16) + n % 16 = n := by
    omega
  rw [unitEscape]
  simp only [cons_append, nil_append, stringUnits?]
  rw [hexDigit?_hexChar _ (by omega), hexDigit?_hexChar _ (by omega), hexDigit?_hexChar _ (by omega),
    hexDigit?_hexChar _ (by omega)]
  cases stringUnits? rest with
  | none => rfl
  | some found =>
    simp only [Option.bind_eq_bind, Option.bind_some, hdigits]
    rfl

variable (m : Text × Text) (more : List (Text × Text)) (n : Nat) (before : List (Text × Value)) (c : Char)
  (t rest : Text)

lemma char_cases :
    (c.toNat < 0x10000 ∧ isHighHalf c.toNat = false ∧ isLowHalf c.toNat = false) ∨
      (0x10000 ≤ c.toNat ∧ c.toNat < 0x110000) := by
  have hvalid := c.valid
  have hnat : c.toNat = c.val.toNat := rfl
  simp only [isHighHalf, isLowHalf, Bool.and_eq_false_iff, decide_eq_false_iff_not]
  omega

lemma stringUnits?_plain {c : Char} (hquote : c ≠ '"') (hslash : c ≠ '\\') (hspace : 32 ≤ c.toNat)
    (rest : Text) :
    stringUnits? (c :: rest) = (stringUnits? rest).map (Prod.map (c.toNat :: ·) id) := by
  rw [stringUnits?.eq_5]
  · rw [if_neg (by simp [hslash]; omega)]
    rfl
  all_goals simp [hquote, hslash]

lemma stringUnits?_escape {e c : Char} (he : escape? e = some c) (rest : Text) :
    stringUnits? ('\\' :: e :: rest) = (stringUnits? rest).map (Prod.map (c.toNat :: ·) id) := by
  rw [stringUnits?.eq_4]
  · rw [he]
    cases stringUnits? rest <;> rfl
  · rintro _ _ _ _ _ rfl
    cases he

lemma stringUnits?_writeChar :
    stringUnits? (writeChar c ++ rest) = (stringUnits? rest).map (Prod.map (units c ++ ·) id) := by
  unfold writeChar
  split
  iterate 7 exact stringUnits?_escape rfl rest
  rename_i hquote hslash _ _ _ _ _
  rw [units]
  split_ifs with hplain hlow hbasic
  · exact stringUnits?_plain hquote hslash hplain.1 rest
  · omega
  · exact stringUnits?_unitEscape hbasic rest
  · have hrange := (char_cases c).resolve_left fun h => hbasic h.1
    rw [append_assoc, stringUnits?_unitEscape (by omega), stringUnits?_unitEscape (by omega),
      Option.map_map]
    rfl

/-- **The units of a written text** are those of its characters. -/
lemma stringUnits?_write :
    stringUnits? (t.flatMap writeChar ++ '"' :: rest) = some (t.flatMap units, rest) := by
  induction t with
  | nil => rfl
  | cons c r ih =>
    rw [flatMap_cons, append_assoc, stringUnits?_writeChar, ih]
    rfl

/-! ## Joining units -/

/-- The units of a character are joined to that character, whatever follows. -/
lemma joinUnits_units_append (rest : List Nat) : joinUnits (units c ++ rest) = c :: joinUnits rest := by
  rcases char_cases c with ⟨hbasic, hhigh, hlow⟩ | ⟨hbeyond, hend⟩
  · rw [units, if_pos hbasic]
    cases rest with
    | nil => simp [joinUnits, hhigh, hlow]
    | cons n rest => simp [joinUnits, hhigh, hlow]
  · rw [units, if_neg (by omega)]
    have hhigh : isHighHalf (0xD800 + (c.toNat - 0x10000) / 0x400) = true := by
      simp [isHighHalf]
      omega
    have hlow : isLowHalf (0xDC00 + (c.toNat - 0x10000) % 0x400) = true := by
      simp [isLowHalf]
      omega
    have hsame : 0x10000 + 0x400 * (0xD800 + (c.toNat - 0x10000) / 0x400 - 0xD800) +
        (0xDC00 + (c.toNat - 0x10000) % 0x400 - 0xDC00) = c.toNat := by
      omega
    rw [cons_append, cons_append, nil_append, joinUnits, hhigh, hlow, Bool.and_true,
      if_pos rfl, hsame, Char.ofNat_toNat]

lemma joinUnits_units : joinUnits (t.flatMap units) = t := by
  induction t with
  | nil => rfl
  | cons c r ih => rw [flatMap_cons, joinUnits_units_append, ih]

/-- **A written text** is read back, up to its closing quote. -/
lemma stringBody?_write : stringBody? (t.flatMap writeChar ++ '"' :: rest) = some (t, rest) := by
  rw [stringBody?, stringUnits?_write]
  exact congrArg (fun u => some (u, rest)) (joinUnits_units t)

/-! ## Objects of strings -/

/-- The object whose members are the given strings. -/
def ofStrings (members : List (Text × Text)) : Value :=
  .object (members.map fun m => (m.1, .string m.2))

lemma writeString_append : writeString t ++ rest = '"' :: (t.flatMap writeChar ++ '"' :: rest) := by
  simp [writeString]

lemma value?_writeString :
    value? (n + 1) (gap (' ' :: (writeString t ++ rest))) = .ok (.string t, rest) := by
  have hgap : gap (' ' :: (writeString t ++ rest)) = writeString t ++ rest := by
    rfl
  rw [hgap, writeString_append, value?, stringBody?_write]

lemma members?_last (key t rest : Text) :
    members? (n + 2) before (writeString key ++ ": " ++ writeString t ++ '\x7d' :: rest) =
      .ok (Table.put before key (.string t), rest) := by
  have hcolon : gap (": " ++ (writeString t ++ '\x7d' :: rest) : Text) =
      ':' :: ' ' :: (writeString t ++ '\x7d' :: rest) := rfl
  rw [append_assoc, append_assoc, writeString_append, members?, stringBody?_write]
  simp only [hcolon, value?_writeString]
  rfl

lemma members?_more (key t rest : Text) :
    members? (n + 2) before (writeString key ++ ": " ++ writeString t ++ (", " ++ rest)) =
      members? (n + 1) (Table.put before key (.string t)) (gap rest) := by
  have hcolon : gap (": " ++ (writeString t ++ (", " ++ rest)) : Text) =
      ':' :: ' ' :: (writeString t ++ (", " ++ rest)) := rfl
  rw [append_assoc, append_assoc, writeString_append, members?, stringBody?_write]
  simp only [hcolon, value?_writeString]
  rfl

lemma exists_writeMembers : ∃ u,
    writeMembers ((m :: more).map fun m => (m.1, .string m.2)) ++ rest = '"' :: u := by
  cases more with
  | nil => exact ⟨_, rfl⟩
  | cons next more => exact ⟨_, rfl⟩

lemma gap_writeMembers :
    gap (writeMembers ((m :: more).map fun m => (m.1, .string m.2)) ++ rest) =
      writeMembers ((m :: more).map fun m => (m.1, .string m.2)) ++ rest := by
  obtain ⟨u, hu⟩ := exists_writeMembers m more rest
  rw [hu]
  rfl

/-- **The members of an object** whose values are strings are read back and entered in their
order. -/
lemma members?_write {n : Nat} {members : List (Text × Text)} (hne : members ≠ [])
    (hn : members.length < n) (before : List (Text × Value)) (rest : Text) :
    members? n before (writeMembers (members.map fun m => (m.1, .string m.2)) ++ '\x7d' :: rest) =
      .ok (members.foldl (fun table m => Table.put table m.1 (.string m.2)) before, rest) := by
  induction members generalizing n before with
  | nil => exact absurd rfl hne
  | cons m more ih =>
    obtain ⟨k, rfl⟩ : ∃ k, n = k + 2 := ⟨n - 2, by simp at hn; omega⟩
    cases more with
    | nil =>
      rw [map_cons, map_nil, writeMembers, write, members?_last]
      rfl
    | cons next more =>
      have hlength : (next :: more).length < k + 1 := by
        rw [length_cons] at hn
        omega
      rw [map_cons, writeMembers.eq_3 _ _ _ (by simp), write, append_assoc,
        append_assoc, members?_more, gap_writeMembers, ih (cons_ne_nil _ _) hlength]
      rfl

lemma length_le_writeMembers (members : List (Text × Text)) :
    members.length ≤ (writeMembers (members.map fun m => (m.1, .string m.2))).length := by
  induction members with
  | nil => exact Nat.zero_le _
  | cons m more ih =>
    cases more with
    | nil =>
      rw [map_cons, map_nil, writeMembers, writeString]
      simp
    | cons next more =>
      rw [map_cons, writeMembers.eq_3 _ _ _ (by simp), length_append, length_append, length_cons]
      have hcomma : (", ".toList).length = 2 := rfl
      omega

lemma value?_object {n : Nat} {u rest : Text} {members : List (Text × Value)}
    (h : members? n [] ('"' :: u) = .ok (members, rest)) :
    value? (n + 1) ('\x7b' :: '"' :: u) = .ok (.object members, rest) := by
  have hgap : gap ('"' :: u) = '"' :: u := rfl
  rw [value?, hgap]
  split
  · rename_i hclosed
    exact absurd (cons.inj hclosed).1 (by decide)
  · rw [h]
    rfl

/-- **An object of strings** is read back: its members are entered into a table one after the
other. -/
lemma read_write_strings {members : List (Text × Text)} (hne : members ≠ []) :
    read (write (ofStrings members)) =
      .ok (.object (members.foldl (fun table m => Table.put table m.1 (.string m.2)) [])) := by
  obtain ⟨m, more, rfl⟩ := exists_cons_of_ne_nil hne
  obtain ⟨u, hu⟩ := exists_writeMembers m more ['\x7d']
  have hwrite : write (ofStrings (m :: more)) = '\x7b' :: '"' :: u := by
    rw [ofStrings, write, cons_append, hu]
  have hlength : (m :: more).length < 2 * ('\x7b' :: '"' :: u).length + 1 := by
    have hle := length_le_writeMembers (m :: more)
    have hsame := congrArg length hu
    have hmore : ('\x7b' :: '"' :: u).length = ('"' :: u).length + 1 := rfl
    rw [length_append] at hsame
    omega
  have hmembers := members?_write hne hlength [] []
  rw [hu] at hmembers
  have hgap : gap ('\x7b' :: '"' :: u) = '\x7b' :: '"' :: u := rfl
  rw [hwrite, read, hgap, value?_object hmembers]
  rfl

end Restage.Json
