import Stencil.Repository

/-! Which of several scores is picked: the first of the highest ones, where it is above a floor.

Scores are doubles, some of which are no numbers. Those stand nowhere in the order: they are never
picked and keep nothing else from being picked.
-/

set_option autoImplicit false

namespace Stencil

namespace Binary64

theorem lt_iff {x y : Binary64} :
    x.lt y = true ↔ ∃ p q, x.position? = some p ∧ y.position? = some q ∧ p < q := by
  unfold lt
  cases x.position? <;> cases y.position? <;> simp

theorem lt_trans {x y z : Binary64} (first : x.lt y = true) (second : y.lt z = true) :
    x.lt z = true := by
  obtain ⟨p, q, atX, atY, before⟩ := lt_iff.mp first
  obtain ⟨q', r, atY', atZ, behind⟩ := lt_iff.mp second
  cases atY.symm.trans atY'
  exact lt_iff.mpr ⟨p, r, atX, atZ, Int.lt_trans before behind⟩

theorem lt_of_not_lt_of_lt {x y z : Binary64} {p : Int} (number : y.position? = some p)
    (notAbove : x.lt y = false) (below : x.lt z = true) : y.lt z = true := by
  obtain ⟨q, r, atX, atZ, before⟩ := lt_iff.mp below
  have order : ¬ q < p := fun above => by
    rw [lt_iff.mpr ⟨q, p, atX, number, above⟩] at notAbove
    exact absurd notAbove (by decide)
  exact lt_iff.mpr ⟨p, r, number, atZ, by omega⟩

end Binary64

/-- Scores are percentages: numbers from 0 to 100. -/
def Scoring.IsPercentage (scoring : Scoring) : Prop :=
  ∀ text content, ∃ place : Int, (scoring text content).position? = some place ∧
    0 ≤ place ∧ place ≤ 100 * Binary64.unitsPerOne

namespace Ranked

/-- The first of those with the highest score. What stands before it and counts at all scores less,
what stands behind it scores no more. -/
def IsFirstBest (floor : Binary64) (ranked : List Ranked) (best : Ranked) : Prop :=
  ∃ before after, ranked = before ++ best :: after ∧ floor.lt best.score ∧
    (∀ earlier ∈ before, floor.lt earlier.score → earlier.score.lt best.score) ∧
    ∀ later ∈ after, ¬ best.score.lt later.score

theorem bestAbove_eq_none_iff {score : Binary64} {ranked : List Ranked} :
    bestAbove score ranked = none ↔ ∀ one ∈ ranked, ¬ score.lt one.score := by
  induction ranked with
  | nil => simp [bestAbove]
  | cons one rest ih =>
    unfold bestAbove
    split
    · rename_i above
      simp [above]
    · rename_i passed
      rw [ih, List.forall_mem_cons]
      exact (and_iff_right passed).symm

theorem isFirstBest_of_bestAbove {score : Binary64} {ranked : List Ranked} {best : Ranked}
    (picked : bestAbove score ranked = some best) : IsFirstBest score ranked best := by
  induction ranked generalizing score with
  | nil => simp [bestAbove] at picked
  | cons one rest ih =>
    unfold bestAbove at picked
    split at picked
    · rename_i above
      cases later : bestAbove one.score rest with
      | none =>
        -- Nothing behind the first one exceeds it.
        rw [later, Option.getD_none] at picked
        cases picked
        exact ⟨[], rest, rfl, above, by simp, bestAbove_eq_none_iff.mp later⟩
      | some other =>
        rw [later, Option.getD_some] at picked
        cases picked
        obtain ⟨before, after, rfl, exceeds, lower, highest⟩ := ih later
        refine ⟨one :: before, after, rfl, Binary64.lt_trans above exceeds, ?_, highest⟩
        intro earlier member counts
        rcases List.mem_cons.mp member with rfl | member
        · exact exceeds
        · cases higher : one.score.lt earlier.score with
          | true => exact lower earlier member higher
          | false =>
            obtain ⟨-, place, -, number, -⟩ := Binary64.lt_iff.mp counts
            exact Binary64.lt_of_not_lt_of_lt number higher exceeds
    · rename_i passed
      obtain ⟨before, after, rfl, exceeds, lower, highest⟩ := ih picked
      refine ⟨one :: before, after, rfl, exceeds, ?_, highest⟩
      intro earlier member counts
      rcases List.mem_cons.mp member with rfl | member
      · exact absurd counts passed
      · exact lower earlier member counts

theorem position?_floor : floor.position? = some (-(Binary64.unitsPerOne : Int)) := by
  decide +kernel

theorem floor_lt_of_isPercentage {scoring : Scoring} (percentage : scoring.IsPercentage)
    (text content : Text) : floor.lt (scoring text content) = true := by
  obtain ⟨place, number, nonnegative, -⟩ := percentage text content
  have positive : 0 < Binary64.unitsPerOne := by decide +kernel
  exact Binary64.lt_iff.mpr ⟨_, place, position?_floor, number, by omega⟩

end Ranked

end Stencil
