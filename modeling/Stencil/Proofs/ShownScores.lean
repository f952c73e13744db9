import Stencil.Number.FixedPlaces
import Stencil.Proofs.CommonBlocks

/-! How scores are shown: with two places, in six columns.

What is shown is the nearest number of hundredths. A score is at most 100, so that six columns hold
it and what follows always begins in the seventh.
-/

set_option autoImplicit false

namespace Stencil

theorem Number.roundDiv_nearest (num : Nat) {den : Nat} (positive : 0 < den) :
    2 * num ≤ 2 * (roundDiv num den * den) + den ∧
      2 * (roundDiv num den * den) ≤ 2 * num + den := by
  have parts := Nat.div_add_mod' num den
  have rest := Nat.mod_lt num positive
  simp only [roundDiv]
  split
  · rename_i up
    have half : den ≤ 2 * (num % den) := by
      rcases Bool.or_eq_true_iff.mp up with above | tie
      · exact (of_decide_eq_true above).le
      · exact (beq_iff_eq.mp (Bool.and_eq_true_iff.mp tie).1).ge
    rw [Nat.add_mul, Nat.one_mul]
    omega
  · rename_i down
    have half : 2 * (num % den) ≤ den := by
      by_contra above
      exact down (by simp [Nat.lt_of_not_le above])
    omega

/-- A text shows a score in six columns: blanks, and the nearest number of hundredths with a point
before its last two digits. -/
structure ShowsScore (score : Binary64) (text : String) : Prop where
  width : text.length = 6
  digits : ∃ units hundredths blanks : Nat, score.position? = some (units : Int) ∧
    2 * (units * 100) ≤ 2 * (hundredths * Binary64.unitsPerOne) + Binary64.unitsPerOne ∧
    2 * (hundredths * Binary64.unitsPerOne) ≤ 2 * (units * 100) + Binary64.unitsPerOne ∧
    text = String.ofList (List.replicate blanks ' ') ++ (toString (hundredths / 100) ++ "." ++
      toString (hundredths % 100 / 10) ++ toString (hundredths % 10))

namespace Binary64

theorem length_hundredths_le {n : Nat} (small : n ≤ 10000) : (hundredths n).length ≤ 6 := by
  have digit : ∀ k < 10, (toString k).length = 1 := by decide
  have upToHundred : ∀ k < 101, (toString k).length ≤ 3 := by decide
  have ones := digit (n % 10) (by omega)
  have tenths := digit (n % 100 / 10) (by omega)
  have whole := upToHundred (n / 100) (by omega)
  have point : ".".length = 1 := rfl
  simp only [hundredths, String.length_append]
  omega

theorem length_padStart {width : Nat} {text : String} (fits : text.length ≤ width) :
    (padStart width text).length = width := by
  rw [padStart, String.length_append, String.length_ofList, List.length_replicate,
    Nat.sub_add_cancel fits]

theorem showsScore_padStart {units : Nat} (percentage : units ≤ 100 * unitsPerOne) :
    ShowsScore (finite false units) (padStart 6 (finite false units).twoPlaces) := by
  have small : Number.roundDiv (units * 100) unitsPerOne ≤ 10000 :=
    Number.roundDiv_le (by omega)
  have positive : 0 < unitsPerOne := by decide +kernel
  have nearest := Number.roundDiv_nearest (units * 100) positive
  have shown : (finite false units).twoPlaces =
      hundredths (Number.roundDiv (units * 100) unitsPerOne) := String.empty_append
  rw [shown]
  exact ⟨length_padStart (length_hundredths_le small), units, _, _, rfl, nearest.1, nearest.2, rfl⟩

end Binary64

end Stencil
