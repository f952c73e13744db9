import Mathlib.Algebra.Order.Field.Rat
import Mathlib.Data.List.Infix
import Mathlib.Data.Rat.Lemmas
import Mathlib.Order.Lattice.Nat
import Stencil.Proofs.CommonBlocks

/-! How many characters of two texts are matched: no fewer than their longest common substring has,
no more than their longest common subsequence.

A sweep finds the longest common block, the first of several. A common substring is a common block,
and the blocks left and right of one another spell a common subsequence. Between these two bounds the
percentage of matched characters is full for equal texts only, and nothing for texts that share no
character only.
-/

set_option autoImplicit false

namespace Stencil

namespace Similarity

/-! ## The longest block -/

theorem take_commonStart_isPrefix (first second : Text) :
    first.take (commonStart first second) <+: second := by
  induction first generalizing second with
  | nil => simp [commonStart]
  | cons c first ih =>
    cases second with
    | nil => simp [commonStart]
    | cons d second =>
      simp only [commonStart]
      split
      · rename_i same
        rw [List.take_succ_cons, same, List.prefix_cons_inj]
        exact ih second
      · exact List.nil_prefix

theorem length_le_commonStart {piece first second : Text} (inFirst : piece <+: first)
    (inSecond : piece <+: second) : piece.length ≤ commonStart first second := by
  induction piece generalizing first second with
  | nil => exact Nat.zero_le _
  | cons c piece ih =>
    obtain ⟨rest, rfl⟩ := inFirst
    obtain ⟨other, rfl⟩ := inSecond
    simp only [List.cons_append, commonStart, if_true, List.length_cons]
    exact Nat.succ_le_succ (ih (List.prefix_append ..) (List.prefix_append ..))

/-- The same characters stand at both places of a block. -/
def Block.IsCommon (first second : Text) (block : Block) : Prop :=
  ∃ piece, piece.length = block.size ∧ piece <+: first.drop block.inFirst ∧
    piece <+: second.drop block.inSecond

theorem Block.isCommon_iff {first second : Text} {block : Block} :
    block.IsCommon first second ↔
      block.size ≤ commonStart (first.drop block.inFirst) (second.drop block.inSecond) := by
  constructor
  · rintro ⟨piece, size, inFirst, inSecond⟩
    exact size ▸ length_le_commonStart inFirst inSecond
  · intro within
    have bounds := commonStart_le (first.drop block.inFirst) (second.drop block.inSecond)
    refine ⟨(first.drop block.inFirst).take block.size, ?_, List.take_prefix .., ?_⟩
    · rw [List.length_take]
      omega
    · exact (List.take_isPrefix_take.mpr (.inl within)).trans (take_commonStart_isPrefix ..)

/-- The longest common block of two texts: of several the one that begins first in the first text,
then in the second. -/
structure Block.IsFirstLongest (first second : Text) (block : Block) : Prop where
  common : block.IsCommon first second
  longest : ∀ other : Block, other.IsCommon first second → other.size ≤ block.size
  earliest : ∀ other : Block, other.IsCommon first second → other.size = block.size →
    block.inFirst < other.inFirst ∨
      block.inFirst = other.inFirst ∧ block.inSecond ≤ other.inSecond

theorem getD_le_greatest (row : List Nat) (place : Nat) :
    row.getD place 0 ≤ (greatest row).2 ∧
      (row.getD place 0 = (greatest row).2 → (greatest row).1 ≤ place) := by
  induction row generalizing place with
  | nil => exact ⟨Nat.le_refl 0, fun _ => Nat.zero_le _⟩
  | cons size rest ih =>
    unfold greatest
    dsimp only
    cases place with
    | zero =>
      rw [List.getD_cons_zero]
      split
      · exact ⟨Nat.le_refl _, fun _ => Nat.le_refl _⟩
      · exact ⟨by dsimp only; omega, fun same => by dsimp only at same; omega⟩
    | succ place =>
      obtain ⟨atMost, first⟩ := ih place
      rw [List.getD_cons_succ]
      split
      · exact ⟨by omega, fun _ => Nat.zero_le _⟩
      · exact ⟨atMost, fun same => Nat.succ_le_succ (first same)⟩

theorem longestBlock_cons (c : Char) (rest second : Text) :
    longestBlock (c :: rest) second =
      let top := greatest (sweep (c :: rest) second).1
      if (longestBlock rest second).size ≤ top.2 then ⟨0, top.1, top.2⟩
      else { longestBlock rest second with inFirst := (longestBlock rest second).inFirst + 1 } :=
  rfl

/-- What two texts have in common from any two places on is no longer than the longest block, and
just as long only where that block does not begin later. -/
theorem commonStart_le_longestBlock (first second : Text) (i j : Nat) :
    let block := longestBlock first second
    commonStart (first.drop i) (second.drop j) ≤ block.size ∧
      (commonStart (first.drop i) (second.drop j) = block.size →
        block.inFirst < i ∨ block.inFirst = i ∧ block.inSecond ≤ j) := by
  induction first generalizing i with
  | nil =>
    have nothing : commonStart (([] : Text).drop i) (second.drop j) = 0 := by
      rw [List.drop_nil]
      exact Nat.le_zero.mp (commonStart_le [] _).1
    intro block
    have empty : block = ⟨0, 0, 0⟩ := rfl
    rw [nothing, empty]
    exact ⟨Nat.le_refl 0, fun _ => by dsimp only; omega⟩
  | cons c rest ih =>
    rw [longestBlock_cons]
    cases i with
    | zero =>
      -- What begins at the first character is a number of the row of the sweep.
      have row := getD_le_greatest (sweep (c :: rest) second).1 j
      rw [getD_sweep] at row
      rw [List.drop_zero]
      dsimp only
      split
      · exact ⟨row.1, fun same => .inr ⟨rfl, row.2 same⟩⟩
      · exact ⟨by dsimp only; omega, fun same => by dsimp only at same; omega⟩
    | succ i =>
      obtain ⟨atMost, first⟩ := ih i
      rw [List.drop_succ_cons]
      dsimp only at atMost first ⊢
      split
      · exact ⟨by dsimp only; omega, fun _ => .inl (Nat.succ_pos i)⟩
      · refine ⟨atMost, fun same => ?_⟩
        have order := first same
        dsimp only
        omega

theorem isFirstLongest_longestBlock (first second : Text) :
    (longestBlock first second).IsFirstLongest first second := by
  have size := size_longestBlock first second
  refine ⟨Block.isCommon_iff.mpr (Nat.le_of_eq size), fun other common => ?_,
    fun other common same => ?_⟩
  · have bound := commonStart_le_longestBlock first second other.inFirst other.inSecond
    exact (Block.isCommon_iff.mp common).trans bound.1
  · have within := Block.isCommon_iff.mp common
    have bound := commonStart_le_longestBlock first second other.inFirst other.inSecond
    exact bound.2 (Nat.le_antisymm bound.1 (same ▸ within))

theorem matched_eq {first second : Text} {block : Block}
    (longest : longestBlock first second = block) :
    matched first second =
      if block.size = 0 then 0
      else block.size + matched (first.take block.inFirst) (second.take block.inSecond) +
        matched (first.drop (block.inFirst + block.size))
          (second.drop (block.inSecond + block.size)) := by
  have common := size_longestBlock first second
  rw [longest] at common
  obtain ⟨inFirst, inSecond, size⟩ := block
  have within := (commonStart_le (first.drop inFirst) (second.drop inSecond)).1
  rw [← common, List.length_drop] at within
  rw [matched, longest]
  dsimp only at within ⊢
  by_cases empty : size = 0
  · rw [dif_neg (by omega), if_pos empty]
  · rw [dif_pos (by omega), if_neg empty]

/-! ## Substrings and subsequences -/

def commonSubstrings (first second : Text) : Set Text :=
  {piece | piece <:+: first ∧ piece <:+: second}

def commonSubsequences (first second : Text) : Set Text :=
  {part | part.Sublist first ∧ part.Sublist second}

theorem isCommon_of_mem_commonSubstrings {piece first second : Text}
    (common : piece ∈ commonSubstrings first second) :
    ∃ block : Block, block.size = piece.length ∧ block.IsCommon first second := by
  obtain ⟨⟨before, after, rfl⟩, ⟨front, behind, rfl⟩⟩ := common
  refine ⟨⟨before.length, front.length, piece.length⟩, rfl, piece, rfl, ?_, ?_⟩
  · rw [List.append_assoc, List.drop_left]
    exact List.prefix_append ..
  · rw [List.append_assoc, List.drop_left]
    exact List.prefix_append ..

theorem mem_commonSubstrings_of_isCommon {first second : Text} {block : Block}
    (common : block.IsCommon first second) :
    ∃ piece ∈ commonSubstrings first second, piece.length = block.size := by
  obtain ⟨piece, size, inFirst, inSecond⟩ := common
  exact ⟨piece, ⟨inFirst.isInfix.trans (List.drop_suffix ..).isInfix,
    inSecond.isInfix.trans (List.drop_suffix ..).isInfix⟩, size⟩

theorem isGreatest_longestBlock (first second : Text) :
    IsGreatest (List.length '' commonSubstrings first second) (longestBlock first second).size := by
  have spec := isFirstLongest_longestBlock first second
  constructor
  · obtain ⟨piece, common, size⟩ := mem_commonSubstrings_of_isCommon spec.common
    exact ⟨piece, common, size⟩
  · rintro _ ⟨piece, common, rfl⟩
    obtain ⟨block, size, isCommon⟩ := isCommon_of_mem_commonSubstrings common
    exact size ▸ spec.longest block isCommon

theorem size_longestBlock_le_matched (first second : Text) :
    (longestBlock first second).size ≤ matched first second := by
  rw [matched_eq rfl]
  split <;> omega

theorem length_le_matched {piece first second : Text}
    (common : piece ∈ commonSubstrings first second) : piece.length ≤ matched first second :=
  ((isGreatest_longestBlock first second).2 ⟨piece, common, rfl⟩).trans
    (size_longestBlock_le_matched first second)

theorem sublist_of_parts {left piece right text : Text} {start size : Nat}
    (before : left.Sublist (text.take start)) (here : piece <+: text.drop start)
    (length : piece.length = size) (after : right.Sublist (text.drop (start + size))) :
    (left ++ piece ++ right).Sublist text := by
  have inside : (piece ++ right).Sublist (text.drop start) := by
    obtain ⟨rest, split⟩ := here
    rw [← List.drop_drop, ← split, ← length, List.drop_left] at after
    rw [← split]
    exact (List.append_sublist_append_left piece).mpr after
  have whole := before.append inside
  rwa [List.take_append_drop, ← List.append_assoc] at whole

/-- The matched characters are those of a common subsequence: the blocks come in the same order in
both texts and none overlaps another. -/
theorem exists_length_eq_matched (first second : Text) :
    ∃ part ∈ commonSubsequences first second, part.length = matched first second := by
  induction first, second using matched.induct with
  | case1 first second inFirst inSecond size block within left right =>
    obtain ⟨before, ⟨beforeFirst, beforeSecond⟩, lengthBefore⟩ := left
    obtain ⟨after, ⟨afterFirst, afterSecond⟩, lengthAfter⟩ := right
    have common := (isFirstLongest_longestBlock first second).common
    rw [block] at common
    obtain ⟨piece, length, pieceFirst, pieceSecond⟩ := common
    refine ⟨before ++ piece ++ after, ⟨sublist_of_parts beforeFirst pieceFirst length afterFirst,
      sublist_of_parts beforeSecond pieceSecond length afterSecond⟩, ?_⟩
    rw [matched, block]
    simp only [dif_pos within, List.length_append, length, lengthBefore, lengthAfter]
    omega
  | case2 first second inFirst inSecond size block outside =>
    refine ⟨[], ⟨List.nil_sublist _, List.nil_sublist _⟩, ?_⟩
    rw [matched, block]
    simp only [dif_neg outside, List.length_nil]

theorem exists_isGreatest_commonSubsequences (first second : Text) :
    ∃ longest, IsGreatest (List.length '' commonSubsequences first second) longest := by
  have bounded : BddAbove (List.length '' commonSubsequences first second) := by
    refine ⟨first.length, ?_⟩
    rintro _ ⟨part, ⟨inFirst, -⟩, rfl⟩
    exact inFirst.length_le
  have inhabited : (List.length '' commonSubsequences first second).Nonempty :=
    ⟨0, [], ⟨List.nil_sublist _, List.nil_sublist _⟩, rfl⟩
  exact ⟨_, Nat.sSup_mem inhabited bounded, fun _ member => le_csSup bounded member⟩

/-! ## Both extremes -/

variable {first second : Text}

theorem matched_eq_zero_iff : matched first second = 0 ↔ ∀ c ∈ first, c ∉ second := by
  constructor
  · intro nothing c inFirst inSecond
    have single : [c] ∈ commonSubstrings first second :=
      ⟨(List.singleton_infix_iff c first).mpr inFirst,
        (List.singleton_infix_iff c second).mpr inSecond⟩
    have one := length_le_matched single
    rw [nothing] at one
    exact absurd one (by simp)
  · intro apart
    obtain ⟨part, ⟨inFirst, inSecond⟩, length⟩ := exists_length_eq_matched first second
    cases part with
    | nil => exact length.symm
    | cons c rest =>
      exact absurd (inSecond.subset List.mem_cons_self) (apart c (inFirst.subset List.mem_cons_self))

theorem matched_of_isInfix (inside : second <:+: first) : matched first second = second.length :=
  Nat.le_antisymm (matched_le first second).2
    (length_le_matched ⟨inside, List.infix_rfl⟩)

theorem two_mul_matched_eq_iff :
    2 * matched first second = first.length + second.length ↔ first = second := by
  constructor
  · intro full
    obtain ⟨part, ⟨inFirst, inSecond⟩, length⟩ := exists_length_eq_matched first second
    have bounds := matched_le first second
    rw [← inFirst.eq_of_length (by omega), ← inSecond.eq_of_length (by omega)]
  · rintro rfl
    rw [matched_of_isInfix List.infix_rfl]
    omega

/-! ## The exact percentage -/

/-- The percentage of the characters of two texts that are matched, before it is rounded; 0 when both
are empty. -/
def percentage (first second : Text) : ℚ :=
  200 * matched first second / (first.length + second.length)

theorem percentage_eq (first second : Text) :
    percentage first second =
      ((200 * matched first second : ℕ) : ℚ) / ((first.length + second.length : ℕ) : ℚ) := by
  unfold percentage
  push_cast
  rfl

theorem percentage_nonneg : 0 ≤ percentage first second := by
  rw [percentage_eq]
  exact div_nonneg (Nat.cast_nonneg _) (Nat.cast_nonneg _)

theorem percentage_le : percentage first second ≤ 100 := by
  have bounds := matched_le first second
  have within : 200 * matched first second ≤ 100 * (first.length + second.length) := by omega
  rw [percentage_eq]
  apply div_le_of_le_mul₀ (Nat.cast_nonneg _) (Nat.ofNat_nonneg 100)
  exact_mod_cast within

theorem percentage_eq_hundred_iff : percentage first second = 100 ↔ first = second ∧ first ≠ [] := by
  rcases Nat.eq_zero_or_pos (first.length + second.length) with empty | some
  · -- Both texts are empty, so that the percentage is 0.
    have isEmpty : first = [] := List.eq_nil_of_length_eq_zero (by omega)
    rw [percentage_eq, empty, Nat.cast_zero, div_zero]
    simp [isEmpty]
  · have positive : ((first.length + second.length : ℕ) : ℚ) ≠ 0 := by
      exact_mod_cast some.ne'
    have full : percentage first second = 100 ↔
        2 * matched first second = first.length + second.length := by
      rw [percentage_eq, div_eq_iff positive]
      norm_cast
      omega
    rw [full, two_mul_matched_eq_iff]
    constructor
    · rintro rfl
      exact ⟨rfl, fun empty => by simp [empty] at some⟩
    · exact And.left

theorem percentage_eq_zero_iff : percentage first second = 0 ↔ ∀ c ∈ first, c ∉ second := by
  rw [← matched_eq_zero_iff, percentage_eq, div_eq_zero_iff, Nat.cast_eq_zero, Nat.cast_eq_zero]
  have bounds := matched_le first second
  omega

end Similarity

/-! ## Rounding -/

theorem Number.roundDiv_mul_mul {factor : Nat} (positive : 0 < factor) (num den : Nat) :
    roundDiv (factor * num) (factor * den) = roundDiv num den := by
  have twice : 2 * (factor * (num % den)) = factor * (2 * (num % den)) := Nat.mul_left_comm ..
  unfold roundDiv
  simp only [Nat.mul_div_mul_left _ _ positive, Nat.mul_mod_mul_left, twice,
    Nat.mul_lt_mul_left positive, Nat.mul_right_inj positive.ne', beq_eq_decide]

theorem Binary64.ofRatio_mul_mul {factor : Nat} (positive : 0 < factor) (negative : Bool)
    (num den : Nat) : ofRatio negative (factor * num) (factor * den) = ofRatio negative num den := by
  unfold ofRatio
  generalize unitsPerOne = unit
  simp only [Nat.mul_assoc, Nat.mul_div_mul_left _ _ positive, Number.roundDiv_mul_mul positive]

namespace Similarity

theorem score_eq_ofRatio (first second : Text) :
    score first second =
      .ofRatio false (percentage first second).num.natAbs (percentage first second).den := by
  rw [percentage_eq]
  unfold score
  generalize 200 * matched first second = num
  dsimp only
  split
  · rename_i empty
    rw [empty, Nat.cast_zero, div_zero]
    decide +kernel
  · rename_i some
    obtain ⟨factor, isNum, isDen⟩ := Rat.exists_eq_mul_div_num_and_eq_mul_div_den (num : ℤ)
      (d := ((first.length + second.length : ℕ) : ℤ)) (by exact_mod_cast some)
    simp only [Int.cast_natCast] at isNum isDen
    generalize ((num : ℚ) / ((first.length + second.length : ℕ) : ℚ)) = ratio at isNum isDen ⊢
    generalize first.length + second.length = total at *
    have whole : num = factor.natAbs * ratio.num.natAbs := by
      rw [← Int.natAbs_mul, ← isNum, Int.natAbs_natCast]
    have parts : total = factor.natAbs * ratio.den := by
      have sizes := congrArg Int.natAbs isDen
      rwa [Int.natAbs_mul, Int.natAbs_natCast, Int.natAbs_natCast] at sizes
    have positive : 0 < factor.natAbs := by
      rcases Nat.eq_zero_or_pos factor.natAbs with zero | positive
      · rw [zero, Nat.zero_mul] at parts
        exact absurd parts some
      · exact positive
    rw [whole, parts, Binary64.ofRatio_mul_mul positive]

end Similarity

/-- The characters that are matched in two texts are those of the longest common block, the first of
several, and those matched on either side of it. They are at least as many as a longest common
substring has and at most as many as a longest common subsequence. Their percentage, which the score
rounds to a double, lies between 0 and 100; it is full for equal texts with characters in them only,
and 0 for texts without a common character only; a substring of the first text is matched as a
whole. -/
theorem matched_between_substring_and_subsequence (first second : Text) :
    let matched := Similarity.matched
    let percentage := Similarity.percentage first second
    (∃ block : Similarity.Block, block.IsFirstLongest first second ∧
      matched first second =
        if block.size = 0 then 0
        else block.size + matched (first.take block.inFirst) (second.take block.inSecond) +
          matched (first.drop (block.inFirst + block.size))
            (second.drop (block.inSecond + block.size))) ∧
    (∃ substring subsequence,
      IsGreatest (List.length '' Similarity.commonSubstrings first second) substring ∧
      IsGreatest (List.length '' Similarity.commonSubsequences first second) subsequence ∧
      substring ≤ matched first second ∧ matched first second ≤ subsequence) ∧
    Similarity.score first second = .ofRatio false percentage.num.natAbs percentage.den ∧
    percentage = 200 * matched first second / (first.length + second.length) ∧
    (first = [] → second = [] → percentage = 0) ∧
    (0 ≤ percentage ∧ percentage ≤ 100) ∧
    (percentage = 100 ↔ first = second ∧ first ≠ []) ∧
    (percentage = 0 ↔ ∀ c ∈ first, c ∉ second) ∧
    (second <:+: first →
      percentage = 200 * second.length / (first.length + second.length)) := by
  intro matched percentage
  refine ⟨⟨_, Similarity.isFirstLongest_longestBlock first second,
      Similarity.matched_eq rfl⟩, ?_, Similarity.score_eq_ofRatio first second, rfl, ?_,
    ⟨Similarity.percentage_nonneg, Similarity.percentage_le⟩,
    Similarity.percentage_eq_hundred_iff, Similarity.percentage_eq_zero_iff, ?_⟩
  · obtain ⟨subsequence, isGreatest⟩ :=
      Similarity.exists_isGreatest_commonSubsequences first second
    obtain ⟨part, common, length⟩ := Similarity.exists_length_eq_matched first second
    exact ⟨_, subsequence, Similarity.isGreatest_longestBlock first second, isGreatest,
      Similarity.size_longestBlock_le_matched first second, isGreatest.2 ⟨part, common, length⟩⟩
  · rintro rfl rfl
    exact Similarity.percentage_eq_zero_iff.mpr (by simp)
  · intro inside
    rw [show percentage = 200 * matched first second / (first.length + second.length) from rfl,
      show matched first second = _ from Similarity.matched_of_isInfix inside]

end Stencil
