import Stencil.Number.Binary64
import Stencil.Text.Blank

/-!
Similarity of two texts. The longest common block is found, then the parts before it and the parts
after it are compared in the same way; the score is twice the number of characters in all blocks, as
a percentage of the combined length.
-/

set_option autoImplicit false

namespace Stencil.Similarity

structure Block where
  inFirst : Nat
  inSecond : Nat
  size : Nat
  deriving DecidableEq, Repr

/-- How many characters two texts have in common at their start, for every place of the second
text: from the character at which the first begins, and the same numbers for the rest of it. -/
def commonRow (c : Char) : Text → List Nat → List Nat
  | [], _ => []
  | other :: rest, below =>
    (if c = other then below.tail.headD 0 + 1 else 0) :: commonRow c rest below.tail

/-- The greatest number of a row and the first place where it stands. -/
def greatest : List Nat → Nat × Nat
  | [] => (0, 0)
  | size :: rest =>
    let (place, most) := greatest rest
    if most ≤ size then (0, size) else (place + 1, most)

/-- The row of common starts at the beginning of the first text, and the longest common block: of
several the one that begins first in the first text, then in the second. -/
def sweep : Text → Text → List Nat × Block
  | [], second => (second.map fun _ => 0, ⟨0, 0, 0⟩)
  | c :: rest, second =>
    let (below, best) := sweep rest second
    let row := commonRow c second below
    let (place, size) := greatest row
    (row, if best.size ≤ size then ⟨0, place, size⟩ else { best with inFirst := best.inFirst + 1 })

def longestBlock (first second : Text) : Block :=
  (sweep first second).2

def matched (first second : Text) : Nat :=
  match longestBlock first second with
  | ⟨inFirst, inSecond, size⟩ =>
    if _within : 0 < size ∧ inFirst + size ≤ first.length then
      size
        + matched (first.take inFirst) (second.take inSecond)
        + matched (first.drop (inFirst + size)) (second.drop (inSecond + size))
    else 0
termination_by first.length
decreasing_by
  · rw [List.length_take]; omega
  · rw [List.length_drop]; omega

/-- The score of two texts, from 0 to 100; 0 when both are empty. -/
def score (first second : Text) : Binary64 :=
  let total := first.length + second.length
  if total = 0 then .zero else .ofRatio false (200 * matched first second) total

end Stencil.Similarity

namespace Stencil

/-- How texts are compared: a score for an input text and the text of a template. -/
abbrev Scoring := Text → Text → Binary64

end Stencil
