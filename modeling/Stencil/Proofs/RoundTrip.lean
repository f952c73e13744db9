import Stencil.Files.Memory
import Stencil.Proofs.Cleaning
import Stencil.Proofs.Extracting
import Stencil.Proofs.WholeText

/-! Filling a form in and reading it back.

A text woven from the literals of a template and values between them always fits the template. The
values themselves come back exactly when no inner literal stands once more in itself followed by the
value behind it: a later occurrence, also one that overlaps the literal, would take its place.
-/

set_option autoImplicit false

namespace Stencil

open Text

/-- A literal stands in itself followed by a value at the front only. -/
def OnlyInFront (literal value : Text) : Prop :=
  ∀ place, StandsAt literal (literal ++ value) place → place = 0

instance (literal value : Text) : Decidable (OnlyInFront literal value) :=
  decidable_of_iff
    (∀ place ≤ (literal ++ value).length, StandsAt literal (literal ++ value) place → place = 0)
    ⟨fun bounded place stands => bounded place (standsAt_iff.mp stands).1 stands,
      fun free place _ => free place⟩

theorem onlyInFront_nil (literal : Text) : OnlyInFront literal [] := by
  intro place stands
  have bound := stands.end_le
  rw [List.append_nil] at bound
  omega

section
variable {text front lead : Text} {later values : List Text} {limit start : Nat}
  {starts : List Nat}

theorem isGreatest_iff_onlyInFront (whole : text = front ++ weave (lead :: later) values)
    (long : values.length = later.length)
    (last : IsGreatest {place | StandsAt lead text place ∧
      place + lead.length ≤ front.length + lead.length + (values.headD []).length} start) :
    start = front.length ↔ OnlyInFront lead (values.headD []) := by
  obtain ⟨tail, woven, -⟩ := weave_cons lead long
  rw [woven, ← List.append_assoc] at whole
  -- Up to the end of the value, the text reads as the literal followed by the value.
  have window {place : Nat} (ends : place ≤ (values.headD []).length) :
      StandsAt lead text (front.length + place) ↔
        StandsAt lead (lead ++ values.headD []) place := by
    rw [whole]
    exact standsAt_window (by rw [List.length_append]; omega)
  constructor
  · intro intended place stands
    have bound := stands.end_le
    rw [List.length_append] at bound
    have before := last.2 ⟨(window (by omega)).mpr stands, by omega⟩
    omega
  · intro fresh
    obtain ⟨stands, ends⟩ := last.1
    have intended : front.length ≤ start := by
      refine last.2 ⟨?_, by omega⟩
      exact (window (Nat.zero_le _)).mpr ⟨[], values.headD [], rfl, rfl⟩
    obtain ⟨place, rfl⟩ := Nat.exists_eq_add_of_le intended
    rw [fresh place ((window (by omega)).mp stands), Nat.add_zero]

theorem forall_onlyInFront_cons {literal : Text} :
    (∀ pair ∈ (literal :: later).zip values, OnlyInFront pair.1 pair.2) ↔
      OnlyInFront literal (values.headD []) ∧
        ∀ pair ∈ later.zip values.tail, OnlyInFront pair.1 pair.2 := by
  cases values with
  | nil => simp [onlyInFront_nil]
  | cons value values => simp [List.zip_cons_cons]

theorem PlacedBack.gaps_of_onlyInFront (placed : PlacedBack text limit later starts)
    (whole : text = front ++ weave (lead :: later) values) (long : values.length = later.length)
    (fresh : ∀ pair ∈ later.zip values.tail, OnlyInFront pair.1 pair.2) :
    limit = front.length + lead.length + (values.headD []).length ∧
      gaps text (lead :: later) (front.length :: starts) = values := by
  induction placed generalizing front lead values with
  | nil =>
    cases List.length_eq_zero_iff.mp long
    refine ⟨?_, rfl⟩
    rw [whole]
    simp [weave]
  | @cons limit start literal later starts placed last ih =>
    cases values with
    | nil => simp at long
    | cons value values =>
      have onward : text = front ++ lead ++ value ++ weave (literal :: later) values := by
        rw [whole]
        simp only [weave, List.append_assoc]
      obtain ⟨fresh_here, fresh_later⟩ := forall_onlyInFront_cons.mp fresh
      obtain ⟨intended, recovered⟩ := ih onward (Nat.succ.inj long) fresh_later
      rw [intended] at last
      have here := (isGreatest_iff_onlyInFront onward (Nat.succ.inj long) last).mpr fresh_here
      have width : (front ++ lead ++ value).length = front.length + lead.length + value.length := by
        simp only [List.length_append]
      have first_gap : (text.drop (front.length + lead.length)).take value.length = value := by
        rw [onward, ← List.length_append, List.append_assoc (front ++ lead), List.drop_left,
          List.take_left]
      refine ⟨here.trans width, ?_⟩
      rw [← here] at recovered
      rw [gaps, recovered, here, width, Nat.add_sub_cancel_left, first_gap]

/-- When the gaps clean to the values, no literal has been taken behind where it was meant: a later
start would leave a gap that is shorter than its value. -/
theorem PlacedBack.onlyInFront_of_clean {first : Nat} (placed : PlacedBack text limit later starts)
    (whole : text = front ++ weave (lead :: later) values) (long : values.length = later.length)
    (behind : front.length ≤ first) (fits : first + lead.length ≤ limit)
    (cleaned : (gaps text (lead :: later) (first :: starts)).map clean = values) :
    limit = front.length + lead.length + (values.headD []).length ∧ first = front.length ∧
      ∀ pair ∈ later.zip values.tail, OnlyInFront pair.1 pair.2 := by
  induction placed generalizing front lead values first with
  | nil =>
    cases List.length_eq_zero_iff.mp long
    have width : text.length = front.length + lead.length := by
      rw [whole]
      simp [weave]
    exact ⟨by simpa using width, by omega, by simp⟩
  | @cons limit start literal later starts placed last ih =>
    cases values with
    | nil => simp at long
    | cons value values =>
      have onward : text = front ++ lead ++ value ++ weave (literal :: later) values := by
        rw [whole]
        simp only [weave, List.append_assoc]
      have width : (front ++ lead ++ value).length = front.length + lead.length + value.length := by
        simp only [List.length_append]
      obtain ⟨same, cleaned⟩ := List.cons.inj cleaned
      -- Where it was meant the literal stands, and the later ones fit behind it.
      have meant : (front ++ lead ++ value).length ≤ start := by
        obtain ⟨tail, woven, ordered⟩ := weave_cons literal (Nat.succ.inj long)
        have split : text = front ++ lead ++ value ++ literal ++ (values.headD [] ++ tail) := by
          rw [onward, woven]
          simp only [List.append_assoc]
        have stands : StandsAt literal text (front ++ lead ++ value).length := ⟨_, _, split, rfl⟩
        refine last.2 ⟨stands, (placed.inOrder_drop stands.end_le).mp ?_⟩
        rw [split, ← List.length_append, List.drop_left]
        exact ordered.append_left _
      obtain ⟨intended, here, fresh⟩ := ih onward (Nat.succ.inj long) meant last.1.2 cleaned
      rw [intended] at last
      -- Cleaning only shortens, so that the gap is no shorter than its value.
      have short := length_clean_le ((text.drop (first + lead.length)).take
        (start - (first + lead.length)))
      rw [same, List.length_take] at short
      refine ⟨here.trans width, by omega, forall_onlyInFront_cons.mpr ⟨?_, fresh⟩⟩
      exact (isGreatest_iff_onlyInFront onward (Nat.succ.inj long) last).mp here

/-- The gaps of a woven text clean to the woven values exactly when no inner literal recurs. -/
theorem Placed.clean_gaps_iff (placed : Placed text (lead :: later) (start :: starts))
    (whole : text = weave (lead :: later) values) (long : values.length = later.length)
    (kept : ∀ value ∈ values, clean value = value) :
    (gaps text (lead :: later) (start :: starts)).map clean = values ↔
      ∀ pair ∈ later.zip values.tail, OnlyInFront pair.1 pair.2 := by
  cases placed with
  | mk least back fits =>
    have first : start = 0 := by
      obtain ⟨tail, woven, -⟩ := weave_cons lead long
      have front : StandsAt lead text 0 :=
        ⟨[], values.headD [] ++ tail, by rw [whole, woven]; simp, rfl⟩
      exact Nat.le_zero.mp (least.2 front)
    subst first
    have front : text = [] ++ weave (lead :: later) values := whole
    constructor
    · intro cleaned
      exact (back.onlyInFront_of_clean front long (Nat.le_refl 0) fits cleaned).2.2
    · intro fresh
      obtain ⟨-, recovered⟩ := back.gaps_of_onlyInFront front long fresh
      rw [List.length_nil] at recovered
      rw [recovered]
      exact (List.map_congr_left kept).trans (List.map_id values)

end

theorem trim_of_levelled {value : Text} (levelled : MatchMode.whole.normalize value = value) :
    value.trim = value := by
  rw [← levelled]
  exact trim_trim (collapse value)

theorem Passage.filled_iff {mode : MatchMode} {passage : Passage} {text : Text}
    {values : List Text} (distinct : passage.names.Nodup)
    (count : values.length = passage.slots.length)
    (crossed : ∀ c ∈ text, mode.crosses c) (filled : text = weave (passage.pieces mode) values)
    (kept : ∀ value ∈ values, clean value = value) :
    ∃ captured, passage.values? mode text = some captured ∧
      ((∀ pair ∈ passage.names.zip values,
          (lastUnder (passage.found mode text) pair.1).map clean = some pair.2) ↔
        ∀ pair ∈ (passage.pieces mode).tail.zip values.tail, OnlyInFront pair.1 pair.2) := by
  have long : values.length = (passage.pieces mode).tail.length := by
    rw [pieces_eq, List.tail_cons, List.length_map, count]
  have ordered : InOrder (passage.pieces mode) text := by
    rw [filled, pieces_eq]
    exact inOrder_weave (by rw [List.length_cons, List.length_map, count])
  obtain ⟨start, starts, placed⟩ := exists_placed ordered
  have captured := values?_of_placed crossed placed
  have reads := forall_lastUnder_zip_iff (f := clean) distinct (length_values captured)
    (count.trans passage.length_names.symm)
  refine ⟨_, captured, ?_⟩
  rw [found_of_values captured, reads]
  rw [pieces_eq] at placed filled long ⊢
  exact placed.clean_gaps_iff filled long kept

/-- A form filled with levelled, tag-free values is always read, and every value is read back
exactly when no inner literal stands again in itself followed by the next value. -/
theorem filled_form_round_trip (extractor : Extractor) (mode : Option MatchMode)
    (content text : Text) (source : String) (values : List Text)
    (lenient : extractor.strict = false) (unlimited : extractor.timeLimit = none)
    (whole : mode.getD extractor.mode = .whole)
    (placeholders : (Passage.ofText content.trim).slots ≠ [])
    (distinct : (Passage.ofText content.trim).names.Nodup)
    (count : values.length = (Passage.ofText content.trim).slots.length)
    (levelled : ∀ value ∈ values, MatchMode.whole.normalize value = value)
    (tagFree : ∀ value ∈ values, TagFree value)
    (filled : MatchMode.whole.normalize text =
      weave ((Passage.ofText content.trim).pieces .whole) values) :
    let passage := Passage.ofText content.trim
    let pieces := passage.pieces .whole
    ∃ extraction,
      (extractor.extractText extractor.timeLimit.cutoff text content mode source).outcome =
        .ok (some extraction) ∧
      extraction.values.names = passage.names ∧
      ((∀ pair ∈ passage.names.zip values, extraction.values.get? pair.1 = some pair.2) ↔
        ∀ pair ∈ pieces.tail.zip values.tail, OnlyInFront pair.1 pair.2) := by
  intro passage pieces
  have kept : ∀ value ∈ values, clean value = value := fun value member =>
    clean_eq_self (trim_of_levelled (levelled value member)) (tagFree value member)
  obtain ⟨captured, found, reads⟩ := Passage.filled_iff distinct count (fun _ _ => rfl) filled kept
  have answer := extractor.outcome_extractText_lenient lenient unlimited text content mode source
  simp only [whole, Compiled.found_whole, Passage.isEmpty_found placeholders found] at answer
  refine ⟨_, answer, ?_, ?_⟩
  · rw [Bindings.names_report_empty, Passage.map_fst_found found]
    exact Compiled.distinct_of_nodup distinct
  · rw [← reads]
    refine forall₂_congr fun pair _ => ?_
    rw [Bindings.get?_report]
    exact Eq.congr_left Option.or_none

theorem filled_form_round_trip_recurring :
    let content := "a{%X%}aba{%Y%}z".toList
    let text := "  a1 < 2ababaz\n".toList
    let values := ["1 < 2".toList, "ba".toList]
    let repository : Repository :=
      { files := MemoryFiles.empty.fileSystem, scoring := fun _ _ => .zero, mode := .line }
    let extractor : Extractor := { repository, mode := .whole, strict := false, timeLimit := none }
    ∃ extraction,
      (extractor.extractText .never text content none "form").outcome = .ok (some extraction) ∧
      extraction.values.names = ["X".toList, "Y".toList] ∧
      ¬ ∀ pair ∈ ["X".toList, "Y".toList].zip values,
        extraction.values.get? pair.1 = some pair.2 := by
  intro content text values repository extractor
  have names : (Passage.ofText (trim content)).names = ["X".toList, "Y".toList] := by
    decide +kernel
  have pieces : (Passage.ofText (trim content)).pieces .whole =
      ["a".toList, "aba".toList, "z".toList] := by decide +kernel
  obtain ⟨extraction, answer, kept, reads⟩ := filled_form_round_trip extractor none content text
    "form" values rfl rfl rfl (by decide +kernel) (by decide +kernel) (by decide +kernel)
    (by decide +kernel) (by decide +kernel) (by decide +kernel)
  rw [names] at kept reads
  rw [pieces] at reads
  exact ⟨extraction, answer, kept, fun recovered => absurd (reads.mp recovered) (by decide)⟩

end Stencil
