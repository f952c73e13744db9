import Stencil.Text.Blank

/-! Where literal texts stand in a text, and rows of literals that stand there one after the other.

Starts count characters from the beginning of the text. The empty literal stands everywhere, at the
very end included.
-/

set_option autoImplicit false

namespace Stencil.Text

/-- A literal stands in a text with its first character at a start. -/
def StandsAt (literal text : Text) (start : Nat) : Prop :=
  ∃ before after, text = before ++ literal ++ after ∧ before.length = start

/-- Literals stand in a text in this order, none overlapping the one before it. -/
def InOrder : List Text → Text → Prop
  | [], _ => True
  | literal :: later, text =>
    ∃ before after, text = before ++ literal ++ after ∧ InOrder later after

/-- Literals with values between them. -/
def weave : List Text → List Text → Text
  | lead :: later, value :: values => lead ++ value ++ weave later values
  | literals, _ => literals.flatten

theorem standsAt_iff {literal text : Text} {start : Nat} :
    StandsAt literal text start ↔ start ≤ text.length ∧ literal <+: text.drop start := by
  constructor
  · rintro ⟨before, after, rfl, rfl⟩
    refine ⟨by simp only [List.append_assoc, List.length_append]; omega, after, ?_⟩
    rw [List.append_assoc, List.drop_left]
  · rintro ⟨within, after, rest⟩
    refine ⟨text.take start, after, ?_, List.length_take_of_le within⟩
    rw [List.append_assoc, rest, List.take_append_drop]

theorem StandsAt.end_le {literal text : Text} {start : Nat} (stands : StandsAt literal text start) :
    start + literal.length ≤ text.length := by
  obtain ⟨before, after, rfl, rfl⟩ := stands
  simp only [List.length_append]
  omega

theorem standsAt_drop {literal text : Text} {place start : Nat} (within : place ≤ text.length) :
    StandsAt literal (text.drop place) start ↔ StandsAt literal text (place + start) := by
  simp only [standsAt_iff, List.length_drop, List.drop_drop]
  constructor
  · exact fun ⟨bound, stands⟩ => ⟨by omega, stands⟩
  · exact fun ⟨bound, stands⟩ => ⟨by omega, stands⟩

theorem inOrder_cons {literal text : Text} {later : List Text} :
    InOrder (literal :: later) text ↔
      ∃ start, StandsAt literal text start ∧ InOrder later (text.drop (start + literal.length)) := by
  constructor
  · rintro ⟨before, after, rfl, ordered⟩
    refine ⟨before.length, ⟨before, after, rfl, rfl⟩, ?_⟩
    rwa [← List.length_append, List.drop_left]
  · rintro ⟨_, ⟨before, after, rfl, rfl⟩, ordered⟩
    rw [← List.length_append, List.drop_left] at ordered
    exact ⟨before, after, rfl, ordered⟩

instance (literal text : Text) (start : Nat) : Decidable (StandsAt literal text start) :=
  decidable_of_iff' _ standsAt_iff

instance InOrder.decidable : (literals : List Text) → (text : Text) → Decidable (InOrder literals text)
  | [], _ => .isTrue trivial
  | literal :: later, text =>
    have (rest : Text) : Decidable (InOrder later rest) := decidable later rest
    decidable_of_iff
      (∃ start ≤ text.length, StandsAt literal text start ∧
        InOrder later (text.drop (start + literal.length)))
      (by
        rw [inOrder_cons]
        constructor
        · exact fun ⟨start, _, found⟩ => ⟨start, found⟩
        · exact fun ⟨start, found⟩ => ⟨start, (standsAt_iff.mp found.1).1, found⟩)

theorem inOrder_cons_drop {literal text : Text} {later : List Text} {place : Nat}
    (within : place ≤ text.length) :
    InOrder (literal :: later) (text.drop place) ↔
      ∃ start, place ≤ start ∧ StandsAt literal text start ∧
        InOrder later (text.drop (start + literal.length)) := by
  rw [inOrder_cons]
  constructor
  · rintro ⟨start, stands, ordered⟩
    refine ⟨place + start, Nat.le_add_right _ _, (standsAt_drop within).mp stands, ?_⟩
    rwa [List.drop_drop, ← Nat.add_assoc] at ordered
  · rintro ⟨start, behind, stands, ordered⟩
    obtain ⟨further, rfl⟩ := Nat.exists_eq_add_of_le behind
    refine ⟨further, (standsAt_drop within).mpr stands, ?_⟩
    rwa [List.drop_drop, ← Nat.add_assoc]

theorem InOrder.append_left {literals : List Text} {text : Text} (ordered : InOrder literals text)
    (front : Text) : InOrder literals (front ++ text) := by
  cases literals with
  | nil => trivial
  | cons literal later =>
    obtain ⟨before, after, rfl, rest⟩ := ordered
    exact ⟨front ++ before, after, by simp only [List.append_assoc], rest⟩

theorem InOrder.append_right {literals : List Text} {text : Text} (ordered : InOrder literals text)
    (tail : Text) : InOrder literals (text ++ tail) := by
  induction literals generalizing text with
  | nil => trivial
  | cons literal later ih =>
    obtain ⟨before, after, rfl, rest⟩ := ordered
    exact ⟨before, after ++ tail, by simp only [List.append_assoc], ih rest⟩

theorem InOrder.of_drop {literals : List Text} {text : Text} {place : Nat}
    (ordered : InOrder literals (text.drop place)) : InOrder literals text := by
  have front := ordered.append_left (text.take place)
  rwa [List.take_append_drop] at front

theorem standsAt_window {literal front window tail : Text} {start : Nat}
    (ends : start + literal.length ≤ window.length) :
    StandsAt literal (front ++ window ++ tail) (front.length + start) ↔
      StandsAt literal window start := by
  have within : start ≤ window.length := by omega
  simp only [standsAt_iff, List.append_assoc, List.length_append, List.drop_length_add_append,
    List.drop_append_of_le_length within]
  constructor
  · rintro ⟨-, stands⟩
    refine ⟨within, List.prefix_of_prefix_length_le stands (List.prefix_append _ tail) ?_⟩
    rw [List.length_drop]
    omega
  · rintro ⟨-, stands⟩
    exact ⟨by omega, stands.trans (List.prefix_append _ tail)⟩

theorem inOrder_weave {literals values : List Text} (long : literals.length = values.length + 1) :
    InOrder literals (weave literals values) := by
  induction literals generalizing values with
  | nil => trivial
  | cons lead later ih =>
    cases values with
    | nil =>
      have alone : later = [] := by simpa using long
      subst alone
      exact ⟨[], [], by simp [weave], trivial⟩
    | cons value values =>
      exact ⟨[], value ++ weave later values, by simp [weave],
        (ih (Nat.succ.inj long)).append_left value⟩

theorem weave_cons (lead : Text) {later values : List Text} (long : values.length = later.length) :
    ∃ tail, weave (lead :: later) values = lead ++ values.headD [] ++ tail ∧ InOrder later tail := by
  cases values with
  | nil =>
    cases List.length_eq_zero_iff.mp long.symm
    exact ⟨[], by simp [weave], trivial⟩
  | cons value values => exact ⟨weave later values, rfl, inOrder_weave long.symm⟩

end Stencil.Text
