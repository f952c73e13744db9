import Stencil.Number.Binary64
import Stencil.Text.Blank

/-!
Reading a double from text: an optional sign, then digits with an optional point and an optional
decimal exponent, or one of the words for infinity and for no number.
-/

set_option autoImplicit false

namespace Stencil.Numeral

/-- The number that a run of decimal digits stands for, after the digits read before it. -/
def valueFrom (before : Nat) (digits : Text) : Nat :=
  digits.foldl (fun value c => value * 10 + (c.toNat - '0'.toNat)) before

/-- Splits a sign off: whether it is negative, and what follows. -/
def sign : Text → Bool × Text
  | '-' :: rest => (true, rest)
  | '+' :: rest => (false, rest)
  | text => (false, text)

/-- The exponent part after the digits: nothing, or a mark and a whole number. -/
def exponent? : Text → Option Int
  | [] => some 0
  | mark :: rest =>
    if mark = 'e' || mark = 'E' then
      let (negative, digits) := sign rest
      if digits.isEmpty || !digits.all Char.isDigit then none
      else some (if negative then -(valueFrom 0 digits : Int) else valueFrom 0 digits)
    else none

/-- Digits with an optional point, at least one digit on one of its sides, and an exponent. -/
def decimal? (negative : Bool) (text : Text) : Option Binary64 :=
  let whole := text.takeWhile Char.isDigit
  let afterWhole := text.dropWhile Char.isDigit
  let (places, afterPlaces) :=
    match afterWhole with
    | '.' :: rest => (rest.takeWhile Char.isDigit, rest.dropWhile Char.isDigit)
    | _ => ([], afterWhole)
  if whole.isEmpty && places.isEmpty then none
  else
    (exponent? afterPlaces).map fun exponent =>
      Binary64.ofDecimal negative (valueFrom (valueFrom 0 whole) places)
        (whole.length + places.length) (exponent - places.length)

/-- The double that a numeral stands for, rounded to nearest. -/
def read? (text : Text) : Option Binary64 :=
  let (negative, magnitude) := sign text
  let word := magnitude.map Char.toLower
  if word = "inf".toList || word = "infinity".toList then some (.infinite negative)
  else if word = "nan".toList then some .nan
  else decimal? negative magnitude

/-- Numerals may group digits by single underscores, but neither begin nor end with one. -/
def ungrouped? (text : Text) : Option Text :=
  let doubled := (text.zip text.tail).any fun (c, next) => c == '_' && next == '_'
  if text.head? = some '_' || text.getLast? = some '_' || doubled then none
  else some (text.filter (· != '_'))

end Stencil.Numeral
