import Restage.Encoding.Utf8
import Restage.Text.Case
import Restage.Text.Quoted

/-!
# Encodings

The encodings in which source files can be read, by their usual names, and what is said about bytes
that are no text.
-/

namespace Restage

open Text

/-- An encoding of texts as bytes. -/
inductive Encoding where
  | utf8
  | ascii
  | latin1
  deriving DecidableEq, Repr

namespace Encoding

/-- The names of an encoding, with underscores between their parts. -/
def names : Encoding → List Text
  | utf8 => ["utf_8", "utf8", "utf", "u8", "cp65001"]
  | ascii => ["ascii", "us_ascii", "us", "646", "ansi_x3.4_1968", "iso646_us", "cp367", "ibm367"]
  | latin1 =>
    ["latin_1", "latin1", "latin", "l1", "iso_8859_1", "iso8859_1", "iso8859", "8859", "cp819",
     "ibm819"]

/-- The encoding of the given name; hyphens, blanks and the case do not matter. -/
def ofName? (name : Text) : Option Encoding :=
  let plain := (lower name).map fun c => if c = '-' ∨ c = ' ' then '_' else c
  [utf8, ascii, latin1].find? (·.names.contains plain)

/-- Why bytes are no text: the encoding, the position and the bytes at fault, and the reason. -/
structure Fault where
  encoding : Text
  position : Nat
  bytes : List UInt8
  reason : Text
  deriving DecidableEq, Repr

def hexByte (b : UInt8) : Text := hexDigits 2 b.toNat

/-- The bytes at fault and where they stand. -/
def Fault.place (f : Fault) : Text :=
  match f.bytes with
  | [b] => "byte 0x" ++ hexByte b ++ " in position " ++ Text.ofNat f.position
  | _ =>
    let last := f.position + f.bytes.length - 1
    "bytes in position " ++ Text.ofNat f.position ++ "-" ++ Text.ofNat last

def Fault.message (f : Fault) : Text :=
  "'" ++ f.encoding ++ "' codec can't decode " ++ f.place ++ ": " ++ f.reason

/-- Reads ASCII bytes from the given position on. -/
def decodeAscii (position : Nat) : List UInt8 → Except Fault Text
  | [] => .ok []
  | b :: r =>
    if b < 0x80 then (decodeAscii (position + 1) r).map (Char.ofNat b.toNat :: ·)
    else .error ⟨"ascii", position, [b], "ordinal not in range(128)"⟩

def decode (e : Encoding) (bytes : List UInt8) : Except Fault Text :=
  match e with
  | utf8 => (Utf8.decode bytes).mapError fun f => ⟨"utf-8", f.position, f.bytes, f.reason.message⟩
  | ascii => decodeAscii 0 bytes
  | latin1 => .ok (bytes.map fun b => Char.ofNat b.toNat)

end Encoding

end Restage
