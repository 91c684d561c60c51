import Restage.Conversion.FieldLocator
import Restage.Proofs.Java.ArgumentLists
import Restage.Proofs.Java.StringLiteral
import Restage.Proofs.Json.StringReading
import Restage.Proofs.Locator.Tiers

/-!
# Structured locators in annotations

The locator of a field can be a JSON object with a description, written as a string literal into an
annotation.  On its way back it crosses the mask, the cuts at commas and at the equals sign, the
seams of adjacent literals, two exchanges, the JSON reader and the cut at the first equals sign.
`structured_locator_read_back` says that all of them together lose nothing.
-/

namespace Restage

open Text Java List Option

/-! ## Locators -/

namespace Locator

variable {value : Text} (kind : Kind)

/-- The object of a locator and its description, written on one line. -/
def structured (kind : Kind) (value description : Text) : Text :=
  Json.write (.object [("locator", .string (kind.spelling ++ "=" ++ value)),
    ("desc", .string description)])

lemma ofToken_spelling : Kind.ofToken kind.spelling = kind := by
  cases kind <;> decide +kernel

lemma read_structured (value description : Text) :
    Json.read (structured kind value description) =
      .ok (.object [("locator".toList, .string (kind.spelling ++ "=" ++ value)),
        ("desc".toList, .string description)]) := by
  have hsame : structured kind value description = Json.write (Json.ofStrings
    [("locator".toList, kind.spelling ++ "=" ++ value), ("desc".toList, description)]) := rfl
  rw [hsame, Json.read_write_strings (cons_ne_nil _ _)]
  rfl

lemma exists_structured (value description : Text) :
    ∃ u, structured kind value description = '\x7b' :: (u ++ ['\x7d']) := by
  exact ⟨_, rfl⟩

lemma reads_structured {kind : Kind} (hkind : kind ≠ .unknown) (hvalue : value ≠ [])
    (description : Text) :
    Reads (structured kind value description)
      ⟨kind, value, if description.isEmpty then none else some description⟩ := by
  have hspelling : '=' ∉ kind.spelling := by
    cases kind <;> decide +kernel
  refine .object rfl (.here (read_structured kind value description)) (.locator (fun x => ?_)
    (.string ⟨rfl, by simp⟩) (.pair ⟨⟨_, hspelling, ofToken_spelling kind, by simp⟩, hkind, hvalue⟩))
  have hget : Table.get? [("locator".toList, Json.Value.string (kind.spelling ++ "=" ++ value)),
    ("desc".toList, .string description)] "desc" = some (.string description) := rfl
  rw [HasText, hget]
  cases description <;> simp +contextual [eq_comm]

/-- **A structured locator** is understood as the locator that it was written for. -/
lemma parse_structured {kind : Kind} (hkind : kind ≠ .unknown) (hvalue : value ≠ [])
    (description : Text) :
    parse (structured kind value description) =
      ⟨kind, value, if description.isEmpty then none else some description⟩ := by
  have htrim : trim (structured kind value description) = structured kind value description := by
    obtain ⟨u, hu⟩ := exists_structured kind value description
    rw [hu]
    refine trim_eq_self ?_ ?_
    · rintro _ ⟨⟩
      decide
    · rw [← cons_append, getLast?_concat]
      rintro _ ⟨⟩
      decide
  refine parse_of_reads ?_
  rw [htrim]
  exact reads_structured hkind hvalue description

end Locator

/-! ## Annotations -/

namespace Java

/-- The argument that gives a locator by the literal of a text. -/
def locatorArgument (t : Text) : Text := "locator = " ++ encodeString t

/-- The annotation that finds an element by the locator with the given text. -/
def findBy (t : Text) : Text := "@FindBy(" ++ locatorArgument t ++ ")"

variable (t : Text)

lemma mask_locatorArgument : mask (locatorArgument t) = "locator = ".toList ++ mask (encodeString t) := by
  have hstart : maskFrom .code "locator = " = "locator = " ∧ Quoting.after .code "locator = " = .code := by
    decide
  unfold locatorArgument
  rw [mask, maskFrom_append, hstart.1, hstart.2, mask]

lemma trim_locatorArgument : trim (locatorArgument t) = locatorArgument t := by
  refine trim_eq_self ?_ ?_
  · have hhead : (locatorArgument t).head? = some 'l' := rfl
    rw [hhead]
    rintro _ ⟨⟩
    decide
  · unfold locatorArgument
    rw [encodeString_eq, ← append_assoc, getLast?_concat]
    rintro _ ⟨⟩
    decide

lemma splitArguments_locatorArgument : splitArguments (locatorArgument t) = [locatorArgument t] := by
  have hcomma : ',' ∉ mask (locatorArgument t) := by
    rw [mask_locatorArgument, mem_append, not_or]
    refine ⟨by decide, fun h => ?_⟩
    rcases mem_mask_encodeString t _ h with h | h <;> exact absurd h (by decide)
  have hblank : ¬allBlank (locatorArgument t) = true := Bool.false_ne_true
  rw [splitArguments, if_neg hblank, ← cutArguments, cutArguments_of_uncut (uncut_of_notMem hcomma),
    trim_locatorArgument]

lemma putAttribute_locatorArgument :
    putAttribute [] (locatorArgument t) = [("locator".toList, encodeString t)] := by
  have hkey : (mask (locatorArgument t)).takeWhile (· ≠ '=') = "locator ".toList := by
    rfl
  have hlength : "locator ".toList.length = 8 := rfl
  have hname : trim ((locatorArgument t).take 8) = "locator".toList := rfl
  have hvalue : trim ((locatorArgument t).drop 9) = encodeString t := trim_encodeString t
  have hlong : 8 < (locatorArgument t).length := Nat.le_add_left 9 _
  rw [putAttribute, hkey, hlength, hname, hvalue, if_pos ⟨hlong, by decide +kernel⟩]
  rfl

lemma annotationAttributes_findBy :
    annotationAttributes (findBy t) = [("locator".toList, encodeString t)] := by
  have hcut : cutFirst? '(' (findBy t) = some ("@FindBy".toList, locatorArgument t ++ [')']) := rfl
  rw [annotationAttributes, hcut]
  dsimp only
  rw [dropFinal?_concat]
  dsimp only
  rw [splitArguments_locatorArgument]
  exact putAttribute_locatorArgument t

end Java

/-! ## Fields -/

namespace Conversion

open Locator

lemma annotationLocator?_findBy {kind : Kind} {value : Text} (hkind : kind ≠ .unknown)
    (hvalue : value ≠ []) (description : Text) :
    annotationLocator? (findBy (structured kind value description)) =
      some (some ⟨kind, value, if description.isEmpty then none else some description⟩) := by
  obtain ⟨u, hu⟩ := exists_structured kind value description
  have hread : stringValue? (encodeString (structured kind value description)) =
      some (structured kind value description) := by
    refine stringValue?_encodeString ?_
    rw [hu, ← cons_append, getLast?_concat]
    rintro _ ⟨⟩
    decide
  have hfull : (some (structured kind value description)).filter (!·.isEmpty) =
      some (structured kind value description) := by
    rw [hu]
    rfl
  have hname : locatorAnnotations.contains
      (annotationName (findBy (structured kind value description))) = true := rfl
  have hget : Table.get? [("locator".toList, encodeString (structured kind value description))]
      "locator" = some (encodeString (structured kind value description)) := rfl
  rw [annotationLocator?, if_pos hname, annotationAttributes_findBy]
  dsimp only
  rw [hget]
  dsimp only
  rw [hread, hfull, map_some, parse_structured hkind hvalue]

/-- **Structured locators are read back.**  Let a field be annotated with the literal of a JSON
object that has the kind and the value of a locator as one member and a description as the other; no
annotation before it has to say anything about the locator.  Then the locator of the field has that
kind, exactly that value and that description, which counts as missing if it is empty. -/
theorem structured_locator_read_back {kind : Kind} {value : Text} (hkind : kind ≠ .unknown)
    (hvalue : value ≠ []) (description : Text) {f : FieldInfo} (before after : List Text)
    (hannotations : f.annotations =
      before ++ findBy (structured kind value description) :: after)
    (hbefore : ∀ a ∈ before, annotationLocator? a = none) :
    fieldLocator? f =
      some ⟨kind, value, if description.isEmpty then none else some description⟩ := by
  have hdecided : f.annotations.findSome? annotationLocator? =
      some (some ⟨kind, value, if description.isEmpty then none else some description⟩) := by
    rw [hannotations, List.findSome?_append, List.findSome?_eq_none_iff.2 hbefore, Option.none_or,
      List.findSome?_cons, annotationLocator?_findBy hkind hvalue]
  rw [fieldLocator?, hdecided]

/-- A value with quotes, backslashes, the look of a seam, separators and characters that JSON
escapes. -/
theorem structured_locator_read_back_quoted :
    fieldLocator?
        { name := "x", type := "WebElement",
          annotations := ["@Deprecated",
            findBy (structured .xpath "//a[b=\"c\\\" + \"d\", (e\n😀" "a field")] } =
      some ⟨.xpath, "//a[b=\"c\\\" + \"d\", (e\n😀", some "a field".toList⟩ :=
  structured_locator_read_back (by decide) (by decide) "a field" ["@Deprecated"] [] rfl
    (by decide +kernel)

end Conversion

end Restage
