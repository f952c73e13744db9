import Stencil.Pattern.Search

/-! What backtracking decides, in terms of places in the text.

A gap takes the most characters after which the rest of the pattern matches, and a search stops at
the least place where the whole pattern does. Behind a character that no gap crosses, nothing has a
say in a match that begins before it.
-/

set_option autoImplicit false

namespace Stencil.Pattern

section
variable {Result : Type} {crosses : Char → Bool} {next : Text → Option Result}

theorem longestGap_sound {text taken : Text} {result : Result}
    (found : longestGap crosses next text = some (taken, result)) :
    ∃ rest, text = taken ++ rest ∧ (∀ c ∈ taken, crosses c) ∧ next rest = some result := by
  induction text generalizing taken with
  | nil =>
    obtain ⟨_, here, same⟩ := Option.map_eq_some_iff.mp found
    cases same
    exact ⟨[], rfl, by simp, here⟩
  | cons c text ih =>
    simp only [longestGap] at found
    split at found
    · rename_i further result' gap
      split at gap
      · rename_i crossable
        cases found
        obtain ⟨rest, rfl, crossed, here⟩ := ih gap
        exact ⟨rest, rfl, List.forall_mem_cons.mpr ⟨crossable, crossed⟩, here⟩
      · simp at gap
    · obtain ⟨_, here, same⟩ := Option.map_eq_some_iff.mp found
      cases same
      exact ⟨c :: text, rfl, by simp, here⟩

theorem longestGap_eq_none {text : Text} :
    longestGap crosses next text = none ↔
      ∀ length ≤ text.length, (∀ c ∈ text.take length, crosses c) →
        next (text.drop length) = none := by
  induction text with
  | nil => simp [longestGap]
  | cons c rest ih =>
    constructor
    · intro failed length within crossed
      cases crossable : crosses c <;> simp only [longestGap, crossable] at failed
      · cases length with
        | zero => simpa using failed
        | succ length => simp [crossable] at crossed
      · split at failed
        · simp at failed
        · rename_i gap
          cases length with
          | zero => simpa using failed
          | succ length =>
            simp only [List.take_succ_cons, List.forall_mem_cons] at crossed
            exact ih.mp gap length (Nat.le_of_succ_le_succ within) crossed.2
    · intro failing
      have here : next (c :: rest) = none := failing 0 (Nat.zero_le _) (by simp)
      cases crossable : crosses c <;> simp only [longestGap, crossable, here]
      · rfl
      · have further : longestGap crosses next rest = none := by
          refine ih.mpr fun length within crossed => ?_
          refine failing (length + 1) (Nat.succ_le_succ within) ?_
          simpa only [List.take_succ_cons, List.forall_mem_cons, crossable, true_and] using crossed
        simp [further]

/-- A gap ends at the last place from which the rest of the pattern matches. -/
theorem longestGap_eq_some {text : Text} {length : Nat} {result : Result}
    (within : length ≤ text.length) (crossed : ∀ c ∈ text.take length, crosses c)
    (here : next (text.drop length) = some result)
    (further : ∀ longer ≤ text.length, length < longer → next (text.drop longer) = none) :
    longestGap crosses next text = some (text.take length, result) := by
  induction text generalizing length with
  | nil =>
    simp only [List.drop_nil] at here
    simp [longestGap, here]
  | cons c rest ih =>
    cases length with
    | zero =>
      have none_behind : longestGap crosses next rest = none := by
        refine longestGap_eq_none.mpr fun longer bound _ => ?_
        exact further (longer + 1) (Nat.succ_le_succ bound) (Nat.succ_pos longer)
      simp only [List.drop_zero] at here
      simp [longestGap, none_behind, here]
    | succ length =>
      simp only [List.take_succ_cons, List.forall_mem_cons] at crossed
      have rest_taken := ih (Nat.le_of_succ_le_succ within) crossed.2 here fun longer bound more =>
        further (longer + 1) (Nat.succ_le_succ bound) (Nat.succ_lt_succ more)
      simp [longestGap, crossed.1, rest_taken]

theorem longestGap_append {next' : Text → Option Result} {row tail : Text}
    (wall : ∀ c ∈ tail.head?, crosses c = false)
    (same : ∀ rest, rest <:+ row → next (rest ++ tail) = next' rest) :
    longestGap crosses next (row ++ tail) = longestGap crosses next' row := by
  induction row with
  | nil =>
    have here := same [] (List.suffix_refl [])
    cases tail with
    | nil => simpa [longestGap] using congrArg (Option.map ([], ·)) here
    | cons c tail =>
      -- The gap ends here at the latest, as it would at the end of the row.
      have stop : crosses c = false := wall c (by simp)
      simpa [longestGap, stop] using congrArg (Option.map ([], ·)) here
  | cons c row ih =>
    have later := ih fun rest behind => same rest (behind.trans (List.suffix_cons c row))
    have here := same (c :: row) (List.suffix_refl _)
    simp only [List.cons_append] at here ⊢
    simp only [longestGap, later, here]

end


/-- The text that a piece asks for. -/
def asked : Piece → Text
  | .literal text => text
  | .gap => []
  | .optional text => text

/-- A pattern that asks only for characters that its gaps cross. -/
def AsksWithin (crosses : Char → Bool) (pattern : Pattern) : Prop :=
  ∀ piece ∈ pattern, ∀ c ∈ asked piece, crosses c

theorem isPrefixOf_append {crosses : Char → Bool} {literal row tail : Text}
    (crossed : ∀ c ∈ literal, crosses c) (wall : ∀ c ∈ tail.head?, crosses c = false) :
    literal.isPrefixOf (row ++ tail) = literal.isPrefixOf row := by
  rw [Bool.eq_iff_iff, List.isPrefixOf_iff_prefix, List.isPrefixOf_iff_prefix]
  refine ⟨fun stands => ?_, fun stands => stands.trans (List.prefix_append row tail)⟩
  rcases List.prefix_or_prefix_of_prefix stands (List.prefix_append row tail) with short | long
  · exact short
  · obtain ⟨more, rfl⟩ := long
    cases more with
    | nil => simp
    | cons c more =>
      -- The literal runs over the end of the row and asks for the character that is not crossed.
      have continued := (List.prefix_append_right_inj row).mp stands
      obtain ⟨after, rfl⟩ := continued
      have stop : crosses c = false := wall c (by simp)
      simp [crossed c (by simp)] at stop

theorem matchHere?_append {crosses : Char → Bool} {pattern : Pattern} {row tail : Text}
    (crossed : AsksWithin crosses pattern)
    (wall : ∀ c ∈ tail.head?, crosses c = false) :
    matchHere? crosses pattern (row ++ tail) = matchHere? crosses pattern row := by
  induction pattern generalizing row with
  | nil => rfl
  | cons piece pattern ih =>
    obtain ⟨first, others⟩ := List.forall_mem_cons.mp crossed
    -- What follows a literal in the row is again a row in front of the same tail.
    have behind (literal : Text) (asks : ∀ c ∈ literal, crosses c) :
        (if literal.isPrefixOf (row ++ tail) then
          matchHere? crosses pattern ((row ++ tail).drop literal.length) else none) =
        if literal.isPrefixOf row then
          matchHere? crosses pattern (row.drop literal.length) else none := by
      rw [isPrefixOf_append asks wall]
      split
      · rename_i stands
        rw [List.drop_append_of_le_length (List.isPrefixOf_iff_prefix.mp stands).length_le]
        exact ih others
      · rfl
    cases piece with
    | literal literal => exact behind literal first
    | gap =>
      simp only [matchHere?]
      rw [longestGap_append wall fun rest _ => ih others]
    | optional literal =>
      simp only [matchHere?]
      rw [behind literal first, ih others]

/-- A match at a place, and none at a place before it. -/
structure LeftmostMatch (crosses : Char → Bool) (pattern : Pattern) (text : Text) (start : Nat)
    (captures : Captures) : Prop where
  within : start ≤ text.length
  here : matchHere? crosses pattern (text.drop start) = some captures
  first : ∀ earlier < start, matchHere? crosses pattern (text.drop earlier) = none

section
variable {crosses : Char → Bool} {pattern : Pattern}

theorem leftmost?_eq_none {text : Text} :
    leftmost? crosses pattern text = none ↔
      ∀ start ≤ text.length, matchHere? crosses pattern (text.drop start) = none := by
  induction text with
  | nil => simp [leftmost?]
  | cons c rest ih =>
    constructor
    · intro failed start within
      simp only [leftmost?] at failed
      split at failed
      · simp at failed
      · rename_i here
        cases start with
        | zero => exact here
        | succ start => exact ih.mp failed start (Nat.le_of_succ_le_succ within)
    · intro failing
      have here := failing 0 (Nat.zero_le _)
      have later := ih.mpr fun start within => failing (start + 1) (Nat.succ_le_succ within)
      simp only [List.drop_zero] at here
      simp only [leftmost?, here, later]

theorem exists_of_leftmost? {text : Text} {captures : Captures}
    (found : leftmost? crosses pattern text = some captures) :
    ∃ start, LeftmostMatch crosses pattern text start captures := by
  induction text with
  | nil => exact ⟨0, Nat.le_refl _, found, fun _ before => absurd before (Nat.not_lt_zero _)⟩
  | cons c rest ih =>
    simp only [leftmost?] at found
    split at found
    · rename_i here
      cases found
      exact ⟨0, Nat.zero_le _, here, fun _ before => absurd before (Nat.not_lt_zero _)⟩
    · rename_i failed
      obtain ⟨start, within, here, first⟩ := ih found
      refine ⟨start + 1, Nat.succ_le_succ within, here, fun earlier before => ?_⟩
      cases earlier with
      | zero => exact failed
      | succ earlier => exact first earlier (Nat.lt_of_succ_lt_succ before)

theorem LeftmostMatch.reported {text : Text} {start : Nat} {captures : Captures}
    (found : LeftmostMatch crosses pattern text start captures) :
    leftmost? crosses pattern text = some captures := by
  induction text generalizing start with
  | nil => simpa [leftmost?] using found.here
  | cons c rest ih =>
    cases start with
    | zero =>
      have here := found.here
      simp only [List.drop_zero] at here
      simp only [leftmost?, here]
    | succ start =>
      have failed := found.first 0 (Nat.succ_pos start)
      simp only [List.drop_zero] at failed
      simp only [leftmost?, failed]
      exact ih ⟨Nat.le_of_succ_le_succ found.within, found.here,
        fun earlier before => found.first (earlier + 1) (Nat.succ_lt_succ before)⟩

theorem matchHere?_drop_inside {row tail : Text} {place : Nat} (inside : place ≤ row.length)
    (crossed : AsksWithin crosses pattern)
    (wall : ∀ c ∈ tail.head?, crosses c = false) :
    matchHere? crosses pattern ((row ++ tail).drop place) =
      matchHere? crosses pattern (row.drop place) := by
  rw [List.drop_append_of_le_length inside, matchHere?_append crossed wall]

theorem drop_behind (row rest : Text) (wall : Char) (further : Nat) :
    (row ++ wall :: rest).drop (row.length + 1 + further) = rest.drop further := by
  rw [Nat.add_assoc, List.drop_length_add_append, Nat.add_comm 1, List.drop_succ_cons]

theorem LeftmostMatch.append {row tail : Text} {start : Nat} {captures : Captures}
    (found : LeftmostMatch crosses pattern row start captures)
    (crossed : AsksWithin crosses pattern)
    (wall : ∀ c ∈ tail.head?, crosses c = false) :
    LeftmostMatch crosses pattern (row ++ tail) start captures := by
  obtain ⟨within, here, first⟩ := found
  refine ⟨by rw [List.length_append]; omega, ?_, fun earlier before => ?_⟩
  · rw [matchHere?_drop_inside within crossed wall]
    exact here
  · rw [matchHere?_drop_inside (by omega) crossed wall]
    exact first earlier before

section
variable {row rest : Text} {wall : Char}

theorem LeftmostMatch.behind {start : Nat} {captures : Captures}
    (found : LeftmostMatch crosses pattern rest start captures)
    (crossed : AsksWithin crosses pattern) (stop : crosses wall = false)
    (failed : leftmost? crosses pattern row = none) :
    LeftmostMatch crosses pattern (row ++ wall :: rest) (row.length + 1 + start) captures := by
  obtain ⟨within, here, first⟩ := found
  refine ⟨by simp only [List.length_append, List.length_cons]; omega, ?_, fun earlier before => ?_⟩
  · rw [drop_behind]
    exact here
  -- An earlier start lies behind the row, or it sees nothing but the row.
  · rcases Nat.lt_or_ge row.length earlier with passed | inside
    · obtain ⟨further, rfl⟩ := Nat.exists_eq_add_of_le passed
      rw [drop_behind]
      exact first further (by omega)
    · rw [matchHere?_drop_inside inside crossed (by simpa using stop)]
      exact leftmost?_eq_none.mp failed earlier inside

theorem leftmost?_append_none
    (crossed : AsksWithin crosses pattern) (stop : crosses wall = false)
    (failed : leftmost? crosses pattern row = none)
    (failed_behind : leftmost? crosses pattern rest = none) :
    leftmost? crosses pattern (row ++ wall :: rest) = none := by
  refine leftmost?_eq_none.mpr fun start within => ?_
  rcases Nat.lt_or_ge row.length start with passed | inside
  · obtain ⟨further, rfl⟩ := Nat.exists_eq_add_of_le passed
    simp only [List.length_append, List.length_cons] at within
    rw [drop_behind]
    exact leftmost?_eq_none.mp failed_behind further (by omega)
  · rw [matchHere?_drop_inside inside crossed (by simpa using stop)]
    exact leftmost?_eq_none.mp failed start inside

end

end

end Stencil.Pattern
