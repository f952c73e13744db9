import Stencil.Pattern.Backtracking

/-!
Searching without running into the exponential cost of backtracking. For each piece, from the last
one back, the results at all places of the text are found in one pass over the results of the piece
behind it. The main statement says that the search reports the leftmost match.
-/

set_option autoImplicit false

namespace Stencil.Pattern

section
variable {Result : Type}

/-- The results of literal text at all places, from those of what follows it: `behind` begins with
the result at the end of the literal when it stands at the first place. -/
def literalColumn (literal : Text) : Text → List (Option Result) → List (Option Result)
  | [], behind => [if literal.isPrefixOf [] then behind.head?.join else none]
  | c :: rest, behind =>
    (if literal.isPrefixOf (c :: rest) then behind.head?.join else none) ::
      literalColumn literal rest behind.tail

/-- The results of a gap at all places, with the characters that it takes. -/
def gapColumn (crosses : Char → Bool) :
    Text → List (Option Result) → List (Option (Text × Result))
  | [], behind => [behind.head?.join.map ([], ·)]
  | c :: rest, behind =>
    let later := gapColumn crosses rest behind.tail
    let here :=
      match if crosses c then later.head?.join else none with
      | some (taken, result) => some (c :: taken, result)
      | none => behind.head?.join.map ([], ·)
    here :: later

end

/-- The matches of a pattern at all places of a text, the start of the text first. -/
def columns (crosses : Char → Bool) : Pattern → Text → List (Option Captures)
  | [], text => (tails text).map fun _ => some []
  | .literal literal :: rest, text =>
    let behind := columns crosses rest text
    literalColumn literal text (behind.drop literal.length)
  | .gap :: rest, text =>
    (gapColumn crosses text (columns crosses rest text)).map fun found =>
      found.map fun (taken, captures) => some taken :: captures
  | .optional literal :: rest, text =>
    let behind := columns crosses rest text
    (literalColumn literal text (behind.drop literal.length)).zipWith
      (fun taken skipped =>
        match taken with
        | some captures => some (some literal :: captures)
        | none => skipped.map (none :: ·))
      behind

theorem head?_drop_tails (text : Text) (n : Nat) (within : n ≤ text.length) :
    ((tails text).drop n).head? = some (text.drop n) := by
  induction text generalizing n with
  | nil => simp only [List.length_nil, Nat.le_zero] at within; subst within; rfl
  | cons c rest ih =>
    cases n with
    | zero => rfl
    | succ n => exact ih n (Nat.le_of_succ_le_succ within)

section
variable {Result : Type}

theorem literalColumn_map (literal : Text) (next : Text → Option Result) (text : Text) :
    literalColumn literal text (((tails text).map next).drop literal.length) =
      (tails text).map fun rest =>
        if literal.isPrefixOf rest then next (rest.drop literal.length) else none := by
  have front (text : Text) (present : literal.isPrefixOf text = true) :
      (((tails text).map next).drop literal.length).head?.join =
        next (text.drop literal.length) := by
    have within := (List.isPrefixOf_iff_prefix.1 present).length_le
    rw [← List.map_drop, List.head?_map, head?_drop_tails text _ within]
    rfl
  induction text with
  | nil =>
    simp only [literalColumn, tails, List.map_cons, List.map_nil, List.cons.injEq, and_true]
    split
    · rename_i present; exact front [] present
    · rfl
  | cons c rest ih =>
    simp only [literalColumn, tails, List.map_cons, List.cons.injEq]
    refine ⟨?_, ?_⟩
    · split
      · rename_i present; exact front (c :: rest) present
      · rfl
    · rw [List.tail_drop, ← List.drop_tail]
      exact ih

theorem gapColumn_map (crosses : Char → Bool) (next : Text → Option Result) (text : Text) :
    gapColumn crosses text ((tails text).map next) =
      (tails text).map (longestGap crosses next) := by
  induction text with
  | nil => rfl
  | cons c rest ih =>
    simp only [gapColumn, tails, List.map_cons, List.tail_cons, List.head?_cons, Option.join_some,
      ih, longestGap]
    rw [tails_eq_cons rest]
    rfl

end

theorem columns_eq (crosses : Char → Bool) (pattern : Pattern) (text : Text) :
    columns crosses pattern text = (tails text).map (matchHere? crosses pattern) := by
  induction pattern with
  | nil => rfl
  | cons piece rest ih =>
    cases piece with
    | literal literal =>
      rw [columns, ih, literalColumn_map]
      rfl
    | gap =>
      rw [columns, ih, gapColumn_map, List.map_map]
      rfl
    | optional literal =>
      rw [columns, ih, literalColumn_map, List.zipWith_map, List.zipWith_self]
      rfl

def search? (mode : MatchMode) (pattern : Pattern) (text : Text) : Option Captures :=
  (columns mode.crosses pattern text).findSome? id

theorem findSome?_tails (crosses : Char → Bool) (pattern : Pattern) (text : Text) :
    ((tails text).map (matchHere? crosses pattern)).findSome? id =
      leftmost? crosses pattern text := by
  induction text with
  | nil =>
    simp only [tails, leftmost?, List.map_cons, List.map_nil, List.findSome?, id_eq]
    cases matchHere? crosses pattern [] <;> rfl
  | cons c rest ih =>
    simp only [tails, leftmost?, List.map_cons, List.findSome?, ih, id_eq]
    cases matchHere? crosses pattern (c :: rest) <;> rfl

theorem search?_eq_leftmost? (mode : MatchMode) (pattern : Pattern) (text : Text) :
    search? mode pattern text = leftmost? mode.crosses pattern text := by
  rw [search?, columns_eq, findSome?_tails]

end Stencil.Pattern
