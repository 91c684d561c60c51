import Restage.Text.Basic

/-!
# UTF-8

A character is written as one to four bytes.  The reader takes the bytes of one character at a time
and says exactly where and why it stops: at a byte that starts no character, at a byte that cannot
continue one, or at the end of the bytes inside a character.  Overlong forms, halves of surrogate
pairs and codes beyond the last plane are refused at the second byte.
-/

namespace Restage.Utf8

/-! ## Writing -/

def encodeChar (c : Char) : List UInt8 :=
  let n := c.toNat
  let tail (shift : Nat) : UInt8 := UInt8.ofNat (0x80 + n / shift % 64)
  if n < 0x80 then [UInt8.ofNat n]
  else if n < 0x800 then [UInt8.ofNat (0xC0 + n / 64), tail 1]
  else if n < 0x10000 then [UInt8.ofNat (0xE0 + n / 4096), tail 64, tail 1]
  else [UInt8.ofNat (0xF0 + n / 262144), tail 4096, tail 64, tail 1]

def encode (t : Text) : List UInt8 := t.flatMap encodeChar

/-! ## Reading -/

/-- Why bytes are no text. -/
inductive Reason where
  | invalidStart
  | invalidContinuation
  | unexpectedEnd
  deriving DecidableEq, Repr

def Reason.message : Reason → Text
  | invalidStart => "invalid start byte"
  | invalidContinuation => "invalid continuation byte"
  | unexpectedEnd => "unexpected end of data"

/-- Bytes that are no character: how many of them, and why. -/
structure Refusal where
  length : Nat
  reason : Reason
  deriving DecidableEq, Repr

def isContinuation (b : UInt8) : Bool := 0x80 ≤ b && b < 0xC0

/-- How many bytes follow a first byte; none if it starts no character. -/
def following? (b : UInt8) : Option Nat :=
  if b < 0x80 then some 0
  else if b < 0xC2 then none
  else if b < 0xE0 then some 1
  else if b < 0xF0 then some 2
  else if b < 0xF5 then some 3
  else none

def mayFollow (first second : UInt8) : Bool :=
  isContinuation second
  && (first ≠ 0xE0 || 0xA0 ≤ second) && (first ≠ 0xED || second < 0xA0)
  && (first ≠ 0xF0 || 0x90 ≤ second) && (first ≠ 0xF4 || second < 0x90)

/-- Checks the bytes after the second one: `left` more are needed, and `read` have been read. -/
def checkRest (read : Nat) : Nat → List UInt8 → Except Refusal Unit
  | 0, _ => .ok ()
  | _ + 1, [] => .error ⟨read, .unexpectedEnd⟩
  | left + 1, b :: r =>
    if isContinuation b then checkRest (read + 1) left r else .error ⟨read, .invalidContinuation⟩

/-- Checks the bytes after the first one. -/
def checkTail (first : UInt8) : Nat → List UInt8 → Except Refusal Unit
  | 0, _ => .ok ()
  | _ + 1, [] => .error ⟨1, .unexpectedEnd⟩
  | left + 1, second :: r =>
    if mayFollow first second then checkRest 2 left r else .error ⟨1, .invalidContinuation⟩

/-- The code of a first byte with the given number of bytes after it. -/
def leadingBits (first : UInt8) : Nat → Nat
  | 0 => first.toNat
  | 1 => first.toNat - 0xC0
  | 2 => first.toNat - 0xE0
  | _ => first.toNat - 0xF0

/-- Reads one character: the character and the number of bytes after the first one. -/
def decodeChar (first : UInt8) (r : List UInt8) : Except Refusal (Char × Nat) :=
  match following? first with
  | none => .error ⟨1, .invalidStart⟩
  | some count =>
    (checkTail first count r).map fun _ =>
      let add (n : Nat) (b : UInt8) : Nat := 64 * n + (b.toNat - 0x80)
      let code := (r.take count).foldl add (leadingBits first count)
      (Char.ofNat code, count)

/-- Where reading stopped: the position, the bytes at fault and the reason. -/
structure Fault where
  position : Nat
  bytes : List UInt8
  reason : Reason
  deriving DecidableEq, Repr

/-- Reads bytes from the given position on. -/
def decodeFrom (position : Nat) : List UInt8 → Except Fault Text
  | [] => .ok []
  | first :: r =>
    match decodeChar first r with
    | .error refusal => .error ⟨position, (first :: r).take refusal.length, refusal.reason⟩
    | .ok (c, count) => (decodeFrom (position + 1 + count) (r.drop count)).map (c :: ·)
termination_by bytes => bytes.length

def decode (bytes : List UInt8) : Except Fault Text := decodeFrom 0 bytes

end Restage.Utf8
