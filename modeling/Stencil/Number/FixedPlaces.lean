import Stencil.Number.Binary64

/-!
Numbers with two places after the point. A double is rounded from its exact value, and a tie goes
to the even neighbour.
-/

set_option autoImplicit false

namespace Stencil.Binary64

def hundredths (n : Nat) : String :=
  toString (n / 100) ++ "." ++ toString (n % 100 / 10) ++ toString (n % 10)

def signText (negative : Bool) : String :=
  if negative then "-" else ""

/-- A double with two places. A negative number that rounds to zero keeps its sign. -/
def twoPlaces : Binary64 → String
  | finite negative units =>
    signText negative ++ hundredths (Number.roundDiv (units * 100) unitsPerOne)
  | infinite negative => signText negative ++ "inf"
  | nan => "nan"

def padStart (width : Nat) (text : String) : String :=
  String.ofList (List.replicate (width - text.length) ' ') ++ text

end Stencil.Binary64
