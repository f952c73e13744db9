import Stencil.Text.Encoding.Error

/-!
UTF-16. Characters are units of two bytes, or pairs of units; a mark at the start of a text says
which byte of a unit comes first.
-/

set_option autoImplicit false

namespace Stencil.Utf16

inductive ByteOrder where
  | littleEndian
  | bigEndian
  deriving DecidableEq, Repr

def ByteOrder.codec : ByteOrder → String
  | littleEndian => "utf-16-le"
  | bigEndian => "utf-16-be"

def ByteOrder.unit (order : ByteOrder) (first second : UInt8) : Nat :=
  match order with
  | littleEndian => second.toNat * 256 + first.toNat
  | bigEndian => first.toNat * 256 + second.toNat

def isHighSurrogate (unit : Nat) : Bool := 0xD800 ≤ unit && unit < 0xDC00

def isLowSurrogate (unit : Nat) : Bool := 0xDC00 ≤ unit && unit < 0xE000

def decodeFrom (order : ByteOrder) : Nat → List UInt8 → Except DecodeError Text
  | _, [] => .ok []
  | position, [byte] =>
    .error (.invalid order.codec byte position position "truncated data")
  | position, first :: second :: rest =>
    let failed (last : Nat) (reason : String) : Except DecodeError Text :=
      .error (.invalid order.codec first position last reason)
    let unit := order.unit first second
    if isHighSurrogate unit then
      match rest with
      | third :: fourth :: later =>
        let low := order.unit third fourth
        if isLowSurrogate low then
          let bits := 0x10000 + (unit - 0xD800) * 0x400 + (low - 0xDC00)
          (decodeFrom order (position + 4) later).map (Char.ofNat bits :: ·)
        else failed (position + 1) "illegal UTF-16 surrogate"
      | _ => failed (position + 1 + rest.length) "unexpected end of data"
    else if isLowSurrogate unit then failed (position + 1) "illegal encoding"
    else (decodeFrom order (position + 2) rest).map (Char.ofNat unit :: ·)

/-- Decodes a text that begins with a byte order mark. A text without one is read in the order of
little-endian machines, only to report what is wrong with its bytes. -/
def decode : List UInt8 → Except DecodeError Text
  | 0xFF :: 0xFE :: rest => decodeFrom .littleEndian 2 rest
  | 0xFE :: 0xFF :: rest => decodeFrom .bigEndian 2 rest
  | [] => .ok []
  | bytes => (decodeFrom .littleEndian 0 bytes).bind fun _ => .error .noByteOrderMark

end Stencil.Utf16
