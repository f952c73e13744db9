import Stencil.Number.Rounding

/-!
Double precision numbers, kept as whole numbers of the least positive one. Every finite double is
`units / 2 ^ 1074` for a natural number `units` with at most 53 significant bits, so that order and
rounding are questions about natural numbers.
-/

set_option autoImplicit false

namespace Stencil

inductive Binary64 where
  | finite (negative : Bool) (units : Nat)
  | infinite (negative : Bool)
  | nan
  deriving DecidableEq, Repr

namespace Binary64

def unitsPerOne : Nat := Nat.pow 2 1074

/-- The first number of units that is too large for a finite double. -/
def unitsLimit : Nat := Nat.pow 2 2098

def zero : Binary64 := finite false 0

/-- The double nearest to `num / den`, to the even one of two equally near; from half a step above
the greatest finite double on it is infinite. -/
def ofRatio (negative : Bool) (num den : Nat) : Binary64 :=
  let scaled := num * unitsPerOne
  let step := Nat.pow 2 ((scaled / den).log2 - 52)
  let units := Number.roundDiv scaled (den * step) * step
  if units < unitsLimit then finite negative units else infinite negative

def ofNat (n : Nat) : Binary64 :=
  ofRatio false n 1

def ofInt (n : Int) : Binary64 :=
  ofRatio (n < 0) n.natAbs 1

/-- The double nearest to `digits * 10 ^ exponent`, where `digits` has at most `width` digits.
Numbers far outside the range of doubles are settled by their size alone. -/
def ofDecimal (negative : Bool) (digits : Nat) (width : Nat) (exponent : Int) : Binary64 :=
  if digits = 0 || (width : Int) + exponent < -400 then finite negative 0
  else if exponent > 400 then infinite negative
  else if exponent < 0 then ofRatio negative digits (Nat.pow 10 exponent.natAbs)
  else ofRatio negative (digits * Nat.pow 10 exponent.natAbs) 1

/-- The weight of the sign in the word that stores a double. -/
def signWeight : Nat := Nat.pow 2 63

/-- The weight of one exponent step in that word: above the 52 bits of the fraction. -/
def exponentWeight : Nat := Nat.pow 2 52

/-- The word that stores a double: sign, exponent field and fraction. -/
def toWord : Binary64 → Nat
  | finite negative units =>
    let shift := units.log2 - 52
    (if negative then signWeight else 0) + shift * exponentWeight + units / Nat.pow 2 shift
  | infinite negative => (if negative then signWeight else 0) + 2047 * exponentWeight
  | nan => 2047 * exponentWeight + exponentWeight / 2

/-- Where a double stands in the order of numbers. Both zeros stand at the same place, and what is
no number has none. -/
def position? : Binary64 → Option Int
  | finite negative units => some (if negative then -units else units)
  | infinite negative => some (if negative then -unitsLimit else unitsLimit)
  | nan => none

def lt (x y : Binary64) : Bool :=
  match x.position?, y.position? with
  | some p, some q => p < q
  | _, _ => false

end Binary64

end Stencil
