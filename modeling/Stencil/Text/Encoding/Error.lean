import Stencil.Text.Quoted

/-!
Bytes that are no text in an encoding, and how they are reported.
-/

set_option autoImplicit false

namespace Stencil

inductive DecodeError where
  /-- The bytes from position `first` to position `last`, of which `byte` is the first, stand for no
  character. -/
  | invalid (codec : String) (byte : UInt8) (first last : Nat) (reason : String)
  /-- Sixteen-bit text that does not say in which order its bytes stand. -/
  | noByteOrderMark
  deriving DecidableEq, Repr

def DecodeError.message : DecodeError → String
  | invalid codec byte first last reason =>
    let place :=
      if first = last then
        let digits := String.ofList (Text.hexDigits 2 byte.toNat)
        s!"byte 0x{digits} in position {first}"
      else s!"bytes in position {first}-{last}"
    s!"'{codec}' codec can't decode {place}: {reason}"
  | noByteOrderMark => "UTF-16 stream does not start with BOM"

end Stencil
