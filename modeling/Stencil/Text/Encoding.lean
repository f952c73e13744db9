import Stencil.Text.Encoding.Utf16
import Stencil.Text.Encoding.Utf8
import Stencil.Text.LetterCase

/-!
Text encodings, found by name. Names are compared without letter case, and any run of characters
other than letters, digits and points separates their parts.
-/

set_option autoImplicit false

namespace Stencil

inductive Encoding where
  | utf8
  | utf8Signed
  | utf16
  | utf16Fixed (order : Utf16.ByteOrder)
  | latin1
  | ascii
  | windows1252
  deriving DecidableEq, Repr

namespace Encoding

/-- The parts of a name, joined by one underscore each. -/
def nameKey (afterSeparator : Bool) : Text → Text
  | [] => []
  | c :: rest =>
    if c.isAlphanum || c = '.' then
      (if afterSeparator then ['_', c] else [c]) ++ nameKey false rest
    else nameKey true rest

/-- The keys under which each encoding is known. -/
def known : List (Encoding × List String) :=
  [(utf8, ["utf_8", "utf8", "u8", "utf", "utf8_ucs2", "utf8_ucs4", "cp65001"]),
    (utf8Signed, ["utf_8_sig"]),
    (utf16, ["utf_16", "utf16", "u16"]),
    (utf16Fixed .littleEndian, ["utf_16_le", "utf_16le", "unicodelittleunmarked"]),
    (utf16Fixed .bigEndian, ["utf_16_be", "utf_16be", "unicodebigunmarked"]),
    (latin1, ["latin_1", "latin1", "latin", "l1", "iso_8859_1", "iso8859_1", "iso8859",
      "iso_8859_1_1987", "iso_ir_100", "8859", "cp819", "ibm819", "csisolatin1"]),
    (ascii, ["ascii", "us_ascii", "us", "646", "cp367", "ibm367", "csascii", "ansi_x3.4_1968",
      "ansi_x3_4_1968", "ansi_x3.4_1986", "iso646_us", "iso_646.irv_1991", "iso_ir_6"]),
    (windows1252, ["cp1252", "1252", "windows_1252"])]

def ofName? (name : String) : Option Encoding :=
  let text := (Text.toAsciiLowerCase name.toList).dropWhile fun c => !(c.isAlphanum || c = '.')
  let key := String.ofList (nameKey false text)
  (known.find? fun (_, keys) => keys.contains key).map Prod.fst

/-- The characters that the Windows code page has where Latin-1 has controls, from 0x80 on; zero
where it has none. -/
def windows1252High : List Nat :=
  [0x20AC, 0, 0x201A, 0x0192, 0x201E, 0x2026, 0x2020, 0x2021, 0x02C6, 0x2030, 0x0160, 0x2039,
    0x0152, 0, 0x017D, 0, 0, 0x2018, 0x2019, 0x201C, 0x201D, 0x2022, 0x2013, 0x2014, 0x02DC, 0x2122,
    0x0161, 0x203A, 0x0153, 0, 0x017E, 0x0178]

/-- Decodes bytes that each stand for one character, or for none. -/
def decodeBytes (codec reason : String) (character? : UInt8 → Option Char) :
    Nat → List UInt8 → Except DecodeError Text
  | _, [] => .ok []
  | position, byte :: rest =>
    match character? byte with
    | some c => (decodeBytes codec reason character? (position + 1) rest).map (c :: ·)
    | none => .error (.invalid codec byte position position reason)

def latin1Char (byte : UInt8) : Option Char :=
  some (Char.ofNat byte.toNat)

def asciiChar? (byte : UInt8) : Option Char :=
  if byte < 0x80 then some (Char.ofNat byte.toNat) else none

def windows1252Char? (byte : UInt8) : Option Char :=
  match if byte < 0x80 then none else windows1252High[byte.toNat - 0x80]? with
  | some 0 => none
  | some n => some (Char.ofNat n)
  | none => some (Char.ofNat byte.toNat)

def decode : Encoding → List UInt8 → Except DecodeError Text
  | utf8, bytes => Utf8.decode bytes
  | utf8Signed, bytes => Utf8.decodeSigned bytes
  | utf16, bytes => Utf16.decode bytes
  | utf16Fixed order, bytes => Utf16.decodeFrom order 0 bytes
  | latin1, bytes => decodeBytes "latin-1" "" latin1Char 0 bytes
  | ascii, bytes => decodeBytes "ascii" "ordinal not in range(128)" asciiChar? 0 bytes
  | windows1252, bytes =>
    decodeBytes "charmap" "character maps to <undefined>" windows1252Char? 0 bytes

end Encoding

end Stencil
