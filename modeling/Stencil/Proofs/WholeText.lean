import Stencil.Proofs.Accumulation

/-! Extraction from a whole text in closed form.

All blanks are levelled, and a gap may run over every character. A template then fits exactly the
texts in which its literals stand in order, and its captures are the gaps of the linear placement.
-/

set_option autoImplicit false

namespace Stencil

namespace Passage

variable {mode : MatchMode} {passage : Passage} {text : Text}

theorem leftmostMatch_of_placed {start : Nat} {starts : List Nat}
    (crossed : ∀ c ∈ text, mode.crosses c)
    (placed : Placed text (passage.pieces mode) (start :: starts)) :
    Pattern.LeftmostMatch mode.crosses (passage.pattern mode) text start
      ((gaps text (passage.pieces mode) (start :: starts)).map some) := by
  rw [pieces_eq] at placed ⊢
  rw [pattern_eq]
  exact Pattern.LeftmostMatch.of_placed crossed placed

theorem exists_placed (ordered : Text.InOrder (passage.pieces mode) text) :
    ∃ start starts, Placed text (passage.pieces mode) (start :: starts) := by
  rw [pieces_eq] at ordered ⊢
  exact Placed.exists_of_inOrder ordered

theorem values?_of_placed {start : Nat} {starts : List Nat}
    (crossed : ∀ c ∈ text, mode.crosses c)
    (placed : Placed text (passage.pieces mode) (start :: starts)) :
    passage.values? mode text = some (gaps text (passage.pieces mode) (start :: starts)) := by
  rw [values?_eq_some_iff, Pattern.search?_eq_leftmost?]
  exact (leftmostMatch_of_placed crossed placed).reported

theorem leftmost?_of_not_inOrder (missing : ¬ Text.InOrder (passage.pieces mode) text) :
    Pattern.leftmost? mode.crosses (passage.pattern mode) text = none := by
  rw [pieces_eq] at missing
  rw [pattern_eq]
  exact Pattern.leftmost?_none_of_not_inOrder missing

theorem values?_of_not_inOrder (missing : ¬ Text.InOrder (passage.pieces mode) text) :
    passage.values? mode text = none := by
  rw [values?, Pattern.search?_eq_leftmost?, leftmost?_of_not_inOrder missing, Option.map_none]

theorem isSome_values?_iff (crossed : ∀ c ∈ text, mode.crosses c) :
    (passage.values? mode text).isSome ↔ Text.InOrder (passage.pieces mode) text := by
  constructor
  · intro captured
    by_contra missing
    rw [values?_of_not_inOrder missing] at captured
    exact absurd captured (by simp)
  · intro fits
    obtain ⟨start, starts, placed⟩ := exists_placed fits
    rw [values?_of_placed crossed placed]
    rfl

end Passage

theorem Compiled.found_whole (content text : Text) :
    found .whole content text = (Passage.ofText content.trim).found .whole text :=
  List.flatMap_singleton _ _

end Stencil
