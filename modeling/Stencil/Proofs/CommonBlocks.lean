import Mathlib.Data.Nat.Log
import Stencil.Proofs.Ranking

/-! Common blocks of two texts, and that their score is a percentage.

A sweep keeps, for every place of the second text, how many characters the two texts have in common
from there on. A longest block is as long as the common start of the texts at its two places, so that
it lies within both; so do the blocks on either side of it, and no character is counted twice.
Rounding keeps to the bounds that are doubles themselves.
-/

set_option autoImplicit false

namespace Stencil

namespace Similarity

/-- How many characters two texts have in common at their start. -/
def commonStart : Text → Text → Nat
  | c :: first, d :: second => if c = d then commonStart first second + 1 else 0
  | _, _ => 0

theorem commonStart_le (first second : Text) :
    commonStart first second ≤ first.length ∧ commonStart first second ≤ second.length := by
  induction first generalizing second with
  | nil => simp [commonStart]
  | cons c first ih =>
    cases second with
    | nil => simp [commonStart]
    | cons d second =>
      obtain ⟨left, right⟩ := ih second
      simp only [commonStart, List.length_cons]
      split <;> omega

theorem getD_commonRow (c : Char) (second : Text) (below : List Nat) (place : Nat) :
    (commonRow c second below).getD place 0 =
      if second[place]? = some c then below.getD (place + 1) 0 + 1 else 0 := by
  induction second generalizing below place with
  | nil => simp [commonRow]
  | cons other rest ih =>
    cases place with
    | zero =>
      have next : below.tail.headD 0 = below.getD 1 0 := by
        rcases below with _ | ⟨_, _ | ⟨_, _⟩⟩ <;> rfl
      simp only [commonRow, List.getD_cons_zero, List.getElem?_cons_zero, Option.some.injEq, next,
        eq_comm]
    | succ place =>
      have next : below.tail.getD (place + 1) 0 = below.getD (place + 1 + 1) 0 := by
        cases below <;> rfl
      simp only [commonRow, List.getD_cons_succ, List.getElem?_cons_succ, ih, next]

theorem commonStart_cons_drop (c : Char) (first second : Text) (place : Nat) :
    commonStart (c :: first) (second.drop place) =
      if second[place]? = some c then commonStart first (second.drop (place + 1)) + 1 else 0 := by
  rcases Nat.lt_or_ge place second.length with inside | outside
  · rw [List.drop_eq_getElem_cons inside, List.getElem?_eq_getElem inside, commonStart]
    simp only [Option.some.injEq, eq_comm]
  · rw [List.drop_eq_nil_of_le outside, List.getElem?_eq_none outside]
    simp [commonStart]

/-- The row of a sweep holds the common starts at all places of the second text. -/
theorem getD_sweep (first second : Text) (place : Nat) :
    (sweep first second).1.getD place 0 = commonStart first (second.drop place) := by
  induction first generalizing place with
  | nil =>
    have none_common : commonStart [] (second.drop place) = 0 :=
      Nat.le_zero.mp (commonStart_le [] _).1
    rw [none_common, sweep, List.getD_eq_getElem?_getD, List.getElem?_map]
    cases second[place]? <;> rfl
  | cons c rest ih =>
    rw [commonStart_cons_drop, ← ih]
    exact getD_commonRow c second _ place

theorem getD_greatest (row : List Nat) : row.getD (greatest row).1 0 = (greatest row).2 := by
  induction row with
  | nil => rfl
  | cons size rest ih =>
    unfold greatest
    dsimp only
    split
    · rfl
    · exact ih

theorem size_longestBlock (first second : Text) :
    (longestBlock first second).size =
      commonStart (first.drop (longestBlock first second).inFirst)
        (second.drop (longestBlock first second).inSecond) := by
  unfold longestBlock
  induction first with
  | nil => rfl
  | cons c rest ih =>
    have row := getD_sweep (c :: rest) second
    have size := getD_greatest (sweep (c :: rest) second).1
    rw [row] at size
    unfold sweep at size ⊢
    dsimp only at size ⊢
    split
    · exact size.symm
    · exact ih

theorem matched_le (first second : Text) :
    matched first second ≤ first.length ∧ matched first second ≤ second.length := by
  induction first, second using matched.induct with
  | case1 first second inFirst inSecond size block within left right =>
    have common := size_longestBlock first second
    have bounds := commonStart_le (first.drop inFirst) (second.drop inSecond)
    rw [block] at common
    simp only [List.length_take, List.length_drop, ← common] at left right bounds
    rw [matched, block]
    simp only [dif_pos within]
    omega
  | case2 first second inFirst inSecond size block outside =>
    rw [matched, block]
    simp only [dif_neg outside]
    omega

end Similarity

/-! ## Rounding within bounds -/

theorem Number.roundDiv_le {num den limit : Nat} (within : num ≤ limit * den) :
    roundDiv num den ≤ limit := by
  rcases Nat.eq_zero_or_pos den with rfl | positive
  · cases Nat.le_zero.mp within
    exact Nat.zero_le limit
  have parts := Nat.div_add_mod num den
  have below : num / den ≤ limit := Nat.div_le_of_le_mul (by rwa [Nat.mul_comm])
  rcases Nat.lt_or_eq_of_le below with less | equal
  · exact (roundDiv_bounds num den).2.trans less
  · -- The quotient is the limit itself, so that nothing is left over to round up.
    have whole : num = num / den * den := by
      rw [Nat.mul_comm limit, ← equal] at within
      have exact_part := Nat.mul_comm den (num / den)
      omega
    rw [whole, roundDiv_mul _ _ positive]
    exact below

namespace Binary64

/-- The unit and the limit are powers of two, here with exponents that stay unevaluated. -/
theorem exists_exponents :
    ∃ one limit, one = 1074 ∧ limit = 2098 ∧ unitsPerOne = Nat.pow 2 one ∧
      unitsLimit = Nat.pow 2 limit :=
  ⟨1074, 2098, rfl, rfl, by decide +kernel, by decide +kernel⟩

/-- A ratio up to a whole number that doubles hold exactly is rounded to no more than that number. -/
theorem ofRatio_le {num den limit : Nat} (within : num ≤ limit * den)
    (small : limit < Nat.pow 2 53) :
    ∃ units, ofRatio false num den = finite false units ∧ units ≤ limit * unitsPerOne := by
  obtain ⟨one, top, isOne, isTop, unitsOne, unitsTop⟩ := exists_exponents
  unfold ofRatio
  dsimp only
  generalize unitsPerOne = unit at *
  generalize unitsLimit = bound at *
  have scaled : num * unit ≤ limit * unit * den := by
    rw [Nat.mul_right_comm]
    exact Nat.mul_le_mul_right _ within
  have bounded : limit * unit < Nat.pow 2 (53 + one) := by
    have powers : Nat.pow 2 (53 + one) = Nat.pow 2 53 * Nat.pow 2 one := Nat.pow_add 2 53 one
    rw [unitsOne, powers]
    exact Nat.mul_lt_mul_of_pos_right small (Nat.two_pow_pos one)
  have finer : (num * unit / den).log2 - 52 ≤ one := by
    have below : num * unit / den ≤ limit * unit :=
      Nat.div_le_of_le_mul (by rwa [Nat.mul_comm den])
    rcases Nat.eq_zero_or_pos (num * unit / den) with zero | positive
    · simp [zero]
    · have exponent := (Nat.log2_lt positive.ne').mpr (Nat.lt_of_le_of_lt below bounded)
      omega
  -- The limit is a whole number of steps, so that rounding to steps does not pass it.
  obtain ⟨count, steps⟩ : Nat.pow 2 ((num * unit / den).log2 - 52) ∣ limit * unit := by
    have whole : limit * unit = limit * Nat.pow 2 one := congrArg (limit * ·) unitsOne
    rw [whole]
    exact Nat.dvd_mul_left_of_dvd (Nat.pow_dvd_pow 2 finer) limit
  generalize Nat.pow 2 ((num * unit / den).log2 - 52) = step at *
  rw [Nat.mul_comm step] at steps
  have rounded : Number.roundDiv (num * unit) (den * step) ≤ count := by
    apply Number.roundDiv_le
    rw [Nat.mul_comm den, ← Nat.mul_assoc, ← steps]
    exact scaled
  have units : Number.roundDiv (num * unit) (den * step) * step ≤ limit * unit := by
    rw [steps]
    exact Nat.mul_le_mul_right step rounded
  have finite_units : limit * unit < bound := by
    rw [unitsTop]
    exact Nat.lt_of_lt_of_le bounded (Nat.pow_le_pow_right (by decide) (by omega))
  exact ⟨_, if_pos (Nat.lt_of_le_of_lt units finite_units), units⟩

end Binary64

namespace Similarity

theorem exists_units_score (text content : Text) :
    ∃ units, score text content = .finite false units ∧ units ≤ 100 * Binary64.unitsPerOne := by
  obtain ⟨left, right⟩ := matched_le text content
  unfold score
  dsimp only
  split
  · exact ⟨0, rfl, Nat.zero_le _⟩
  · exact Binary64.ofRatio_le (by omega) (by decide)

theorem isPercentage_score : Scoring.IsPercentage score := by
  intro text content
  obtain ⟨units, rounded, below⟩ := exists_units_score text content
  rw [rounded]
  exact ⟨units, rfl, by omega, by omega⟩

end Similarity

end Stencil
