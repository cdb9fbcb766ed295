import SyntaxTally.Text.Quoted

/-!
# UTF-8

Bytes to characters, with the first place where the bytes are the encoding of no text. A fault spans
the bytes that were fine up to the one that cannot follow.
-/
namespace SyntaxTally.Text

inductive Utf8Reason where
  | start
  | continuation
  | truncated
  deriving DecidableEq

def Utf8Reason.message : Utf8Reason → String
  | start => "invalid start byte"
  | continuation => "invalid continuation byte"
  | truncated => "unexpected end of data"

structure Utf8Fault where
  byte : UInt8
  position : Nat
  /-- How many bytes are at fault, at least one. -/
  length : Nat
  reason : Utf8Reason
  deriving DecidableEq

def Utf8Fault.message (fault : Utf8Fault) : String :=
  let what :=
    if fault.length = 1 then
      "byte 0x" ++ hex 2 fault.byte.toNat ++ " in position " ++ toString fault.position
    else
      "bytes in position " ++ toString fault.position ++ "-" ++ toString (fault.position + fault.length - 1)
  "'utf-8' codec can't decode " ++ what ++ ": " ++ fault.reason.message

/-- What a first byte asks for: the bits it gives, the least and greatest second byte, and how many
bytes follow it. -/
def leadByte (byte : UInt8) : Option (Nat × UInt8 × UInt8 × Nat) :=
  if byte < 0x80 then some (byte.toNat, 0x80, 0xBF, 0)
  else if byte < 0xC2 then none
  else if byte < 0xE0 then some (byte.toNat - 0xC0, 0x80, 0xBF, 1)
  else if byte < 0xF0 then
    some (byte.toNat - 0xE0, if byte = 0xE0 then 0xA0 else 0x80, if byte = 0xED then 0x9F else 0xBF, 2)
  else if byte < 0xF5 then
    some (byte.toNat - 0xF0, if byte = 0xF0 then 0x90 else 0x80, if byte = 0xF4 then 0x8F else 0xBF, 3)
  else none

/-- Reads so many following bytes, the first of them between the bounds: the value with their bits, or
how many were fine and what was wrong then. -/
def followBytes (value : Nat) (least greatest : UInt8) (seen : Nat) :
    Nat → List UInt8 → Except (Nat × Utf8Reason) (Nat × List UInt8)
  | 0, rest => .ok (value, rest)
  | _ + 1, [] => .error (seen, .truncated)
  | n + 1, byte :: rest =>
    if least ≤ byte && byte ≤ greatest then
      followBytes (value * 64 + (byte.toNat - 0x80)) 0x80 0xBF (seen + 1) n rest
    else .error (seen, .continuation)

/-- The characters of the bytes from the position on. The fuel is at least their number. -/
def decodeUtf8From : Nat → Nat → List UInt8 → Except Utf8Fault (List Char)
  | 0, _, _ => .ok []
  | _ + 1, _, [] => .ok []
  | fuel + 1, position, byte :: rest =>
    match leadByte byte with
    | none => .error ⟨byte, position, 1, .start⟩
    | some (value, least, greatest, more) =>
      match followBytes value least greatest 0 more rest with
      | .error (seen, reason) => .error ⟨byte, position, seen + 1, reason⟩
      | .ok (value, rest) => (decodeUtf8From fuel (position + more + 1) rest).map (Char.ofNat value :: ·)

/-- The text whose encoding the bytes are. -/
def decodeUtf8 (bytes : List UInt8) : Except Utf8Fault (List Char) :=
  decodeUtf8From bytes.length 0 bytes

/-- The bytes of a text. -/
def encodeUtf8 (text : List Char) : List UInt8 := text.flatMap String.utf8EncodeChar

end SyntaxTally.Text
