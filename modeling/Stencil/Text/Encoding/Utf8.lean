import Stencil.Text.Encoding.Error

/-!
UTF-8. A character is a first byte, which fixes how many continuation bytes follow and in which
range the next one lies, and those bytes. An error covers the bytes of the unfinished character.
-/

set_option autoImplicit false

namespace Stencil.Utf8

/-- A character begun at `start`: the bits read so far, how many more bytes it owes, and the range
that the next one has to lie in. -/
structure Begun where
  start : Nat
  lead : UInt8
  bits : Nat
  owed : Nat
  low : UInt8
  high : UInt8

/-- What a first byte of several begins, if it is one. Overlong forms, surrogates and code points
beyond the last one are excluded by the range of the second byte. -/
def begin? (position : Nat) (byte : UInt8) : Option Begun :=
  if 0xC2 ≤ byte && byte ≤ 0xDF then some ⟨position, byte, byte.toNat - 0xC0, 1, 0x80, 0xBF⟩
  else if byte = 0xE0 then some ⟨position, byte, 0, 2, 0xA0, 0xBF⟩
  else if byte = 0xED then some ⟨position, byte, 0xD, 2, 0x80, 0x9F⟩
  else if 0xE1 ≤ byte && byte ≤ 0xEF then some ⟨position, byte, byte.toNat - 0xE0, 2, 0x80, 0xBF⟩
  else if byte = 0xF0 then some ⟨position, byte, 0, 3, 0x90, 0xBF⟩
  else if 0xF1 ≤ byte && byte ≤ 0xF3 then some ⟨position, byte, byte.toNat - 0xF0, 3, 0x80, 0xBF⟩
  else if byte = 0xF4 then some ⟨position, byte, 4, 3, 0x80, 0x8F⟩
  else none

def failed (lead : UInt8) (first last : Nat) (reason : String) : Except DecodeError Text :=
  .error (.invalid "utf-8" lead first last reason)

/-- Decodes bytes from a position on, inside a character or between two. -/
def decodeFrom : Option Begun → Nat → List UInt8 → Except DecodeError Text
  | none, _, [] => .ok []
  | some begun, position, [] =>
    failed begun.lead begun.start (position - 1) "unexpected end of data"
  | none, position, byte :: rest =>
    if byte < 0x80 then
      (decodeFrom none (position + 1) rest).map (Char.ofNat byte.toNat :: ·)
    else
      match begin? position byte with
      | some begun => decodeFrom (some begun) (position + 1) rest
      | none => failed byte position position "invalid start byte"
  | some begun, position, byte :: rest =>
    if begun.low ≤ byte && byte ≤ begun.high then
      let bits := begun.bits * 64 + (byte.toNat - 0x80)
      if begun.owed ≤ 1 then (decodeFrom none (position + 1) rest).map (Char.ofNat bits :: ·)
      else
        decodeFrom (some ⟨begun.start, begun.lead, bits, begun.owed - 1, 0x80, 0xBF⟩) (position + 1)
          rest
    else failed begun.lead begun.start (position - 1) "invalid continuation byte"

def decode (bytes : List UInt8) : Except DecodeError Text :=
  decodeFrom none 0 bytes

def signature : List UInt8 := [0xEF, 0xBB, 0xBF]

/-- Decodes a text that may begin with the signature. A text that is only part of the signature is
empty. -/
def decodeSigned (bytes : List UInt8) : Except DecodeError Text :=
  if bytes.length < 3 && bytes.isPrefixOf signature then .ok []
  else if signature.isPrefixOf bytes then decode (bytes.drop 3)
  else decode bytes

def encodeChar (c : Char) : List UInt8 :=
  let n := c.toNat
  let continuation (weight : Nat) : UInt8 := UInt8.ofNat (0x80 + n / weight % 0x40)
  if n < 0x80 then [UInt8.ofNat n]
  else if n < 0x800 then [UInt8.ofNat (0xC0 + n / 0x40), continuation 1]
  else if n < 0x10000 then [UInt8.ofNat (0xE0 + n / 0x1000), continuation 0x40, continuation 1]
  else
    [UInt8.ofNat (0xF0 + n / 0x40000), continuation 0x1000, continuation 0x40, continuation 1]

def encode (text : Text) : List UInt8 :=
  text.flatMap encodeChar

end Stencil.Utf8
