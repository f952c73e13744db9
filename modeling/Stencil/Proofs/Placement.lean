import Mathlib.Data.Nat.SuccPred
import Stencil.Proofs.Backtracking
import Stencil.Proofs.Occurrence

/-! The linear placement of literals, and that greedy backtracking arrives at it.

The first literal goes to its first occurrence. The others are placed from the right, each at the
last occurrence that ends by the start chosen for the one behind it. No choice is ever taken back:
the start chosen for a row of literals is the last place from which the row still fits, so that
every longer gap in front of it fails.
-/

set_option autoImplicit false

namespace Stencil

open Text

/-- Literals placed from the right. The limit is the start of the first of them, or the end of the
text when there is none. -/
inductive PlacedBack (text : Text) : Nat → List Text → List Nat → Prop where
  | nil : PlacedBack text text.length [] []
  | cons {limit start : Nat} {literal : Text} {later : List Text} {starts : List Nat} :
      PlacedBack text limit later starts →
      IsGreatest {place | StandsAt literal text place ∧ place + literal.length ≤ limit} start →
      PlacedBack text start (literal :: later) (start :: starts)

/-- The linear placement: the first literal at its first occurrence, the others from the right. -/
inductive Placed (text : Text) : List Text → List Nat → Prop where
  | mk {limit start : Nat} {lead : Text} {later : List Text} {starts : List Nat} :
      IsLeast {place | StandsAt lead text place} start →
      PlacedBack text limit later starts →
      start + lead.length ≤ limit →
      Placed text (lead :: later) (start :: starts)

/-- The texts between literals that stand at starts. -/
def gaps (text : Text) : List Text → List Nat → List Text
  | lead :: literal :: later, first :: start :: starts =>
    ((text.drop (first + lead.length)).take (start - (first + lead.length))) ::
      gaps text (literal :: later) (start :: starts)
  | _, _ => []

namespace PlacedBack

variable {text : Text} {limit : Nat} {literals : List Text} {starts : List Nat}

/-- The limit is the last place from which the literals stand in order. -/
theorem inOrder_drop (placed : PlacedBack text limit literals starts) {place : Nat}
    (within : place ≤ text.length) : InOrder literals (text.drop place) ↔ place ≤ limit := by
  induction placed generalizing place with
  | nil => exact ⟨fun _ => within, fun _ => trivial⟩
  | @cons limit start literal later starts _ last ih =>
    rw [inOrder_cons_drop within]
    constructor
    -- Another occurrence that leaves room for the later literals is not behind the chosen one.
    · rintro ⟨other, behind, stands, ordered⟩
      exact behind.trans (last.2 ⟨stands, (ih stands.end_le).mp ordered⟩)
    · intro before
      obtain ⟨stands, ends⟩ := last.1
      exact ⟨start, before, stands, (ih stands.end_le).mpr ends⟩

theorem exists_of_inOrder (ordered : InOrder literals text) :
    ∃ limit starts, PlacedBack text limit literals starts := by
  induction literals with
  | nil => exact ⟨_, _, .nil⟩
  | cons literal later ih =>
    obtain ⟨start, stands, rest⟩ := inOrder_cons.mp ordered
    obtain ⟨limit, starts, placed⟩ := ih rest.of_drop
    have bounded : BddAbove {place | StandsAt literal text place ∧ place + literal.length ≤ limit} :=
      ⟨limit, fun place ⟨_, ends⟩ => by omega⟩
    obtain ⟨last, greatest⟩ := bounded.exists_isGreatest_of_nonempty
      ⟨start, stands, (placed.inOrder_drop stands.end_le).mp rest⟩
    exact ⟨last, last :: starts, .cons placed greatest⟩

end PlacedBack

theorem Placed.exists_of_inOrder {text lead : Text} {later : List Text}
    (ordered : InOrder (lead :: later) text) :
    ∃ start starts, Placed text (lead :: later) (start :: starts) := by
  obtain ⟨place, stands, rest⟩ := inOrder_cons.mp ordered
  obtain ⟨limit, starts, placed⟩ := PlacedBack.exists_of_inOrder rest.of_drop
  have fits := (placed.inOrder_drop stands.end_le).mp rest
  obtain ⟨first, least⟩ := BddBelow.exists_isLeast_of_nonempty
    (OrderBot.bddBelow {place | StandsAt lead text place}) ⟨place, stands⟩
  -- What fits behind some occurrence of the lead fits behind its first one.
  have before := least.2 stands
  exact ⟨first, starts, .mk least placed (by omega)⟩

namespace Pattern

/-- Literals, each behind a gap. -/
def spaced (literals : List Text) : Pattern :=
  literals.flatMap fun literal => [.gap, .literal literal]

variable {crosses : Char → Bool} {text : Text}

theorem captures_of_spaced {literals : List Text} {captures : Captures}
    (found : matchHere? crosses (spaced literals) text = some captures) :
    ∃ values : List Text, captures = values.map some ∧ values.length = literals.length := by
  induction literals generalizing text captures with
  | nil =>
    cases found
    exact ⟨[], rfl, rfl⟩
  | cons literal later ih =>
    obtain ⟨⟨taken, rest⟩, gap, rfl⟩ := Option.map_eq_some_iff.mp found
    obtain ⟨behind, -, -, here⟩ := longestGap_sound gap
    change (if literal.isPrefixOf behind then
      matchHere? crosses (spaced later) (behind.drop literal.length) else none) = some rest at here
    split at here
    · obtain ⟨values, rfl, long⟩ := ih here
      exact ⟨taken :: values, rfl, congrArg (· + 1) long⟩
    · simp at here

theorem matchHere?_literal_drop {literal : Text} {rest : Pattern} {start : Nat}
    (stands : StandsAt literal text start) :
    matchHere? crosses (.literal literal :: rest) (text.drop start) =
      matchHere? crosses rest (text.drop (start + literal.length)) := by
  have front := List.isPrefixOf_iff_prefix.mpr (standsAt_iff.mp stands).2
  rw [matchHere?, if_pos front, List.drop_drop]

theorem matchHere?_literal_none {literal : Text} {rest : Pattern} {start : Nat}
    (within : start ≤ text.length) (missing : ¬ StandsAt literal text start) :
    matchHere? crosses (.literal literal :: rest) (text.drop start) = none := by
  rw [matchHere?, if_neg]
  exact fun front => missing (standsAt_iff.mpr ⟨within, List.isPrefixOf_iff_prefix.mp front⟩)

theorem matchHere?_spaced_none {literals : List Text} {place : Nat} (within : place ≤ text.length)
    (missing : ¬ InOrder literals (text.drop place)) :
    matchHere? crosses (spaced literals) (text.drop place) = none := by
  induction literals generalizing place with
  | nil => exact absurd trivial missing
  | cons literal later ih =>
    have failing : longestGap crosses (matchHere? crosses (.literal literal :: spaced later))
        (text.drop place) = none := by
      refine longestGap_eq_none.mpr fun length bound _ => ?_
      rw [List.length_drop] at bound
      rw [List.drop_drop]
      by_cases stands : StandsAt literal text (place + length)
      · rw [matchHere?_literal_drop stands]
        refine ih stands.end_le fun ordered => missing ?_
        exact (inOrder_cons_drop within).mpr ⟨_, Nat.le_add_right _ _, stands, ordered⟩
      · exact matchHere?_literal_none (by omega) stands
    show (longestGap crosses (matchHere? crosses (.literal literal :: spaced later))
      (text.drop place)).map _ = none
    rw [failing, Option.map_none]

theorem matchHere?_spaced {lead : Text} {first limit : Nat} {literals : List Text}
    {starts : List Nat} (crossed : ∀ c ∈ text, crosses c)
    (placed : PlacedBack text limit literals starts) (fits : first + lead.length ≤ limit) :
    matchHere? crosses (spaced literals) (text.drop (first + lead.length)) =
      some ((gaps text (lead :: literals) (first :: starts)).map some) := by
  induction placed generalizing lead first with
  | nil => rfl
  | @cons limit start literal later starts placed last ih =>
    obtain ⟨stands, ends⟩ := last.1
    have bound := stands.end_le
    have width : first + lead.length + (start - (first + lead.length)) = start :=
      Nat.add_sub_of_le fits
    have here : matchHere? crosses (.literal literal :: spaced later)
        ((text.drop (first + lead.length)).drop (start - (first + lead.length))) =
          some ((gaps text (literal :: later) (start :: starts)).map some) := by
      rw [List.drop_drop, width, matchHere?_literal_drop stands]
      exact ih ends
    -- A longer gap ends at an occurrence behind the chosen one, where the rest no longer fits.
    have further : ∀ longer ≤ (text.drop (first + lead.length)).length,
        start - (first + lead.length) < longer →
          matchHere? crosses (.literal literal :: spaced later)
            ((text.drop (first + lead.length)).drop longer) = none := by
      intro longer within more
      rw [List.length_drop] at within
      rw [List.drop_drop]
      by_cases other : StandsAt literal text (first + lead.length + longer)
      · rw [matchHere?_literal_drop other]
        refine matchHere?_spaced_none other.end_le fun ordered => ?_
        have chosen := last.2 ⟨other, (placed.inOrder_drop other.end_le).mp ordered⟩
        omega
      · exact matchHere?_literal_none (by omega) other
    have taken := longestGap_eq_some (by rw [List.length_drop]; omega)
      (fun c member => crossed c (List.mem_of_mem_drop (List.mem_of_mem_take member))) here further
    show (longestGap crosses (matchHere? crosses (.literal literal :: spaced later))
      (text.drop (first + lead.length))).map _ = _
    rw [taken]
    rfl

/-- Greedy backtracking from the left arrives at the linear placement. -/
theorem LeftmostMatch.of_placed {lead : Text} {later : List Text} {start : Nat} {starts : List Nat}
    (crossed : ∀ c ∈ text, crosses c) (placed : Placed text (lead :: later) (start :: starts)) :
    LeftmostMatch crosses (.literal lead :: spaced later) text start
      ((gaps text (lead :: later) (start :: starts)).map some) := by
  cases placed with
  | mk least back fits =>
    have stands : StandsAt lead text start := least.1
    have bound := stands.end_le
    refine ⟨by omega, ?_, fun earlier before => ?_⟩
    · rw [matchHere?_literal_drop stands]
      exact matchHere?_spaced crossed back fits
    · refine matchHere?_literal_none (by omega) fun other => ?_
      exact absurd (least.2 other) (Nat.not_le.mpr before)

theorem leftmost?_none_of_not_inOrder {lead : Text} {later : List Text}
    (missing : ¬ InOrder (lead :: later) text) :
    leftmost? crosses (.literal lead :: spaced later) text = none := by
  refine leftmost?_eq_none.mpr fun start within => ?_
  by_cases stands : StandsAt lead text start
  · rw [matchHere?_literal_drop stands]
    refine matchHere?_spaced_none stands.end_le fun ordered => missing ?_
    exact inOrder_cons.mpr ⟨start, stands, ordered⟩
  · exact matchHere?_literal_none within stands

end Pattern

/-! What a placement covers. -/

section
variable {text lead : Text} {later : List Text} {start limit : Nat} {starts : List Nat}

theorem PlacedBack.covers (placed : PlacedBack text limit later starts)
    (stands : StandsAt lead text start) (fits : start + lead.length ≤ limit) :
    weave (lead :: later) (gaps text (lead :: later) (start :: starts)) <+: text.drop start := by
  induction placed generalizing lead start with
  | nil =>
    simpa [gaps, weave] using (standsAt_iff.mp stands).2
  | @cons limit place literal later starts placed last ih =>
    obtain ⟨after, rest⟩ := (standsAt_iff.mp stands).2
    obtain ⟨behind, covered⟩ := ih last.1.1 last.1.2
    have onward : text.drop place =
        (text.drop (start + lead.length)).drop (place - (start + lead.length)) := by
      rw [List.drop_drop, Nat.add_sub_of_le fits]
    refine ⟨behind, ?_⟩
    calc
      _ = lead ++ ((text.drop (start + lead.length)).take (place - (start + lead.length)) ++
            text.drop place) := by simp only [gaps, weave, ← covered, List.append_assoc]
      _ = lead ++ text.drop (start + lead.length) := by
            rw [onward, List.take_append_drop]
      _ = text.drop start := by rw [← rest, ← List.drop_drop, ← rest, List.drop_left]

theorem Placed.covers (placed : Placed text (lead :: later) (start :: starts)) :
    weave (lead :: later) (gaps text (lead :: later) (start :: starts)) <+: text.drop start := by
  cases placed with
  | mk least back fits => exact back.covers least.1 fits

end

end Stencil
