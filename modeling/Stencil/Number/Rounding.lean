/-!
Rounding a quotient of natural numbers to a natural number. The result is within half a unit of
the quotient, and of two results equally near the even one is taken.
-/

set_option autoImplicit false

namespace Stencil.Number

/-- The natural number nearest to `num / den`; a tie goes to the even neighbour. -/
def roundDiv (num den : Nat) : Nat :=
  let quotient := num / den
  let twice := 2 * (num % den)
  if den < twice || (twice == den && quotient % 2 == 1) then quotient + 1 else quotient

theorem roundDiv_bounds (num den : Nat) :
    num / den ≤ roundDiv num den ∧ roundDiv num den ≤ num / den + 1 := by
  simp only [roundDiv]
  split <;> omega

theorem roundDiv_mul (quotient den : Nat) (positive : 0 < den) :
    roundDiv (quotient * den) den = quotient := by
  simp only [roundDiv, Nat.mul_mod_left, Nat.mul_div_cancel _ positive]
  rw [if_neg]
  simp
  omega

end Stencil.Number
