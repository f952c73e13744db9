import Stencil.Proofs.Grammar
import Stencil.Proofs.TemplateLines

/-! Where placeholders stand in a template, and which delimiters are strays.

Placeholders are recognised from the left, each at the first place behind the one before it. They cut
a unit of the template into fragments. A delimiter that shares no character with a placeholder lies
within one fragment, because whatever reaches from one fragment into the next runs over the
placeholder between them. Lenient compilation warns of each fragment that holds a delimiter, and strict
compilation stops at the first of these.
-/

set_option autoImplicit false

namespace Stencil

open Text

/-- A stretch of a text: the place where it begins, and the place behind it. -/
structure Span where
  start : Nat
  stop : Nat
  deriving DecidableEq, Repr

namespace Text

/-- What spans leave of a text from a place on: the fragments before, between and behind them. -/
def outside (text : Text) : Nat → List Span → List Text
  | place, [] => [text.drop place]
  | place, span :: later =>
    (text.drop place).take (span.start - place) :: outside text span.stop later

/-- Spans that follow one another from a place on and end by a bound. -/
def InRow (bound : Nat) : Nat → List Span → Prop
  | place, [] => place ≤ bound
  | place, span :: later =>
    place ≤ span.start ∧ span.start ≤ span.stop ∧ InRow bound span.stop later

theorem InRow.le_bound {bound place : Nat} {spans : List Span} (row : InRow bound place spans) :
    place ≤ bound := by
  induction spans generalizing place with
  | nil => exact row
  | cons span later ih => exact row.1.trans (row.2.1.trans (ih row.2.2))

theorem InRow.le_start {bound place : Nat} {spans : List Span} (row : InRow bound place spans) :
    ∀ span ∈ spans, place ≤ span.start := by
  induction spans generalizing place with
  | nil => simp
  | cons first later ih =>
    obtain ⟨begins, ends, row⟩ := row
    refine List.forall_mem_cons.mpr ⟨begins, fun span member => ?_⟩
    exact (begins.trans ends).trans (ih row span member)

theorem outside_succ {text : Text} {place : Nat} {c : Char} {spans : List Span}
    (letter : text.drop place = c :: text.drop (place + 1))
    (row : InRow text.length (place + 1) spans) :
    ∃ lead later, text.outside (place + 1) spans = lead :: later ∧
      text.outside place spans = (c :: lead) :: later := by
  cases spans with
  | nil => exact ⟨_, [], rfl, by rw [outside, letter]⟩
  | cons span later =>
    have further : span.start - place = (span.start - (place + 1)) + 1 := by
      have := row.1
      omega
    refine ⟨_, _, rfl, ?_⟩
    rw [outside, letter, further, List.take_succ_cons]

/-- A literal that stands in a fragment is one that stands in the text clear of all spans. The
induction runs over the spans: what is clear of the first ends before it or begins behind it. -/
theorem exists_standsAt_outside_iff {literal text : Text} {place : Nat} {spans : List Span}
    (row : InRow text.length place spans) :
    (∃ fragment ∈ text.outside place spans, ∃ start, StandsAt literal fragment start) ↔
      ∃ start ≥ place, StandsAt literal text start ∧
        ∀ span ∈ spans, start + literal.length ≤ span.start ∨ span.stop ≤ start := by
  induction spans generalizing place with
  | nil =>
    simp only [outside, List.mem_singleton, exists_eq_left, List.not_mem_nil, false_imp_iff,
      implies_true, and_true]
    constructor
    · rintro ⟨start, stands⟩
      exact ⟨place + start, Nat.le_add_right _ _, (standsAt_drop row).mp stands⟩
    · rintro ⟨start, behind, stands⟩
      obtain ⟨further, rfl⟩ := Nat.exists_eq_add_of_le behind
      exact ⟨further, (standsAt_drop row).mpr stands⟩
  | cons span later ih =>
    obtain ⟨begins, ends, row⟩ := row
    have bound := row.le_bound
    -- The first fragment is a window of the text, and places in it count from `place`.
    let window := (text.drop place).take (span.start - place)
    have long : window.length = span.start - place := by
      rw [List.length_take, List.length_drop]
      omega
    have whole : text = text.take place ++ window ++ text.drop span.start := by
      rw [List.append_assoc, show text.drop span.start = (text.drop place).drop (span.start - place) by
        rw [List.drop_drop]; congr 1; omega, List.take_append_drop, List.take_append_drop]
    have front : (text.take place).length = place := by
      rw [List.length_take]
      omega
    have here (start : Nat) (room : start + literal.length ≤ span.start - place) :
        StandsAt literal text (place + start) ↔ StandsAt literal window start := by
      have moved := @standsAt_window literal (text.take place) window (text.drop span.start) start
        (long ▸ room)
      rwa [← whole, front] at moved
    simp only [outside, List.exists_mem_cons_iff, List.forall_mem_cons, ih row]
    constructor
    · rintro (⟨start, stands⟩ | ⟨start, behind, stands, clear⟩)
      · have room : start + literal.length ≤ span.start - place := long ▸ stands.end_le
        have first : place + start + literal.length ≤ span.start := by omega
        refine ⟨place + start, Nat.le_add_right _ _, (here start room).mpr stands, .inl first,
          fun other member => .inl ?_⟩
        have := row.le_start other member
        omega
      · exact ⟨start, (begins.trans ends).trans behind, stands, .inr behind, clear⟩
    · rintro ⟨start, behind, stands, before | after, clear⟩
      · obtain ⟨further, rfl⟩ := Nat.exists_eq_add_of_le behind
        exact .inl ⟨further, (here further (by omega)).mp stands⟩
      · exact .inr ⟨start, after, stands, clear⟩

end Text

/-! ## Recognised placeholders -/

namespace Placeholder

/-- The spans of the placeholders that are recognised in a text, each read at the first place behind
the one before it. Places count from the beginning of a longer text that the text ends. -/
def spansFrom (place : Nat) (text : Text) : List Span :=
  match text with
  | [] => []
  | c :: rest =>
    match _found : read? (c :: rest) with
    | some (_, after) =>
      let stop := place + ((c :: rest).length - after.length)
      ⟨place, stop⟩ :: spansFrom stop after
    | none => spansFrom (place + 1) rest
termination_by text.length
decreasing_by
  · exact read?_shorter _found
  · simp

def spans (text : Text) : List Span :=
  spansFrom 0 text

/-- From a place on, these are the placeholders of a text: no written placeholder stands between the
place and the first of them, and the same holds of those behind it. -/
inductive Recognised (text : Text) : Nat → List Span → Prop where
  | done {place : Nat} :
      (∀ start ≥ place, ∀ spelling : Spelling, ¬ StandsAt spelling.text text start) →
      Recognised text place []
  | next {place : Nat} {span : Span} {later : List Span} (spelling : Spelling) :
      place ≤ span.start →
      (∀ start ≥ place, start < span.start → ∀ other : Spelling, ¬ StandsAt other.text text start) →
      StandsAt spelling.text text span.start →
      span.stop = span.start + spelling.text.length →
      Recognised text span.stop later →
      Recognised text place (span :: later)

theorem read?_drop_of_standsAt {spelling : Spelling} {text : Text} {start : Nat}
    (stands : StandsAt spelling.text text start) :
    read? (text.drop start) =
      some (spelling.name, text.drop (start + spelling.text.length)) := by
  obtain ⟨before, after, rfl, rfl⟩ := stands
  rw [← List.length_append, List.drop_left, List.append_assoc, List.drop_left]
  exact read?_text spelling after

theorem not_standsAt_of_unread {spelling : Spelling} {text : Text} {start : Nat}
    (unread : read? (text.drop start) = none) : ¬ StandsAt spelling.text text start := by
  intro stands
  rw [read?_drop_of_standsAt stands] at unread
  exact absurd unread (by simp)

theorem spansFrom_nil (place : Nat) : spansFrom place [] = [] := by
  rw [spansFrom]

theorem spansFrom_spelling (spelling : Spelling) (place : Nat) (after : Text) :
    spansFrom place (spelling.text ++ after) =
      ⟨place, place + spelling.text.length⟩ :: spansFrom (place + spelling.text.length) after := by
  have read := read?_text spelling after
  cases shape : spelling.text ++ after with
  | nil => exact absurd (List.append_eq_nil_iff.mp shape).1 spelling.text_ne_nil
  | cons c rest =>
    have long : (c :: rest).length - after.length = spelling.text.length := by
      rw [← shape, List.length_append]
      omega
    rw [shape] at read
    rw [spansFrom]
    split
    · rename_i found
      rw [read] at found
      cases found
      simp only [long]
    · rename_i missing
      rw [read] at missing
      exact absurd missing (by simp)

theorem spansFrom_letter {c : Char} {rest : Text} (missing : read? (c :: rest) = none)
    (place : Nat) : spansFrom place (c :: rest) = spansFrom (place + 1) rest := by
  rw [spansFrom]
  split
  · rename_i found
    rw [missing] at found
    exact absurd found (by simp)
  · rfl

namespace Recognised

variable {text : Text} {place : Nat} {spans others : List Span}

theorem of_succ (recognised : Recognised text (place + 1) spans)
    (missing : ∀ spelling : Spelling, ¬ StandsAt spelling.text text place) :
    Recognised text place spans := by
  cases recognised with
  | done clear =>
    refine .done fun start behind spelling => ?_
    rcases behind.eq_or_lt with rfl | further
    · exact missing spelling
    · exact clear start further spelling
  | next spelling behind clear stands ends later =>
    refine .next spelling (by omega) (fun start behind before other => ?_) stands ends later
    rcases behind.eq_or_lt with rfl | further
    · exact missing other
    · exact clear start further before other

theorem inRow (recognised : Recognised text place spans) (within : place ≤ text.length) :
    InRow text.length place spans := by
  induction recognised with
  | done => exact within
  | next spelling behind _ stands ends _ ih =>
    exact ⟨behind, by omega, ih (by rw [ends]; exact stands.end_le)⟩

theorem unique (recognised : Recognised text place spans)
    (recognised' : Recognised text place others) : spans = others := by
  induction recognised generalizing others with
  | done clear =>
    cases recognised' with
    | done => rfl
    | next spelling behind _ stands => exact absurd stands (clear _ behind spelling)
  | @next place span later spelling behind clear stands ends _ ih =>
    cases recognised' with
    | done clear' => exact absurd stands (clear' _ behind spelling)
    | @next _ span' later' spelling' behind' clear' stands' ends' recognised' =>
      -- The one that starts first stands where the other has nothing.
      have start : span.start = span'.start := by
        rcases Nat.lt_trichotomy span.start span'.start with before | same | after
        · exact absurd stands (clear' _ behind before spelling)
        · exact same
        · exact absurd stands' (clear _ behind' after spelling')
      -- Both are read at the same place, and reading leaves one rest behind.
      have stop : span.stop = span'.stop := by
        have read := read?_drop_of_standsAt stands
        have read' := read?_drop_of_standsAt stands'
        rw [start, read'] at read
        have rest := congrArg (fun found => (found.map fun one => one.2.length).getD 0) read
        simp only [Option.map_some, Option.getD_some, List.length_drop] at rest
        have bound := stands.end_le
        have bound' := stands'.end_le
        omega
      cases span
      cases span'
      cases start
      cases stop
      rw [ih recognised']

end Recognised

/-- Reading from the left finds the placeholders that are recognised, and the literals are what they
leave of the text. -/
theorem recognised_spansFrom (front text : Text) :
    Recognised (front ++ text) front.length (spansFrom front.length text) ∧
      (front ++ text).outside front.length (spansFrom front.length text) =
        (Passage.ofText text).literals := by
  -- The text in front is carried along, since places count from its beginning.
  induction text using Passage.ofText.induct generalizing front with
  | case1 =>
    rw [spansFrom_nil, List.append_nil]
    refine ⟨.done fun start behind spelling stands => ?_, ?_⟩
    · have bound := stands.end_le
      have long := List.length_pos_of_ne_nil spelling.text_ne_nil
      omega
    · rw [outside, List.drop_length, Passage.ofText_nil]
      rfl
  | case2 first rest name after found ih =>
    obtain ⟨spelling, rfl, written⟩ := exists_spelling_of_read? found
    have later := ih (front ++ spelling.text)
    rw [List.length_append, List.append_assoc] at later
    rw [Passage.ofText_placeholder found, written, spansFrom_spelling]
    refine ⟨.next spelling (Nat.le_refl _) (fun start behind before => ?_) ?_ rfl later.1, ?_⟩
    · exact absurd before (Nat.not_lt.mpr behind)
    · exact ⟨front, after, (List.append_assoc _ _ _).symm, rfl⟩
    · rw [outside, later.2, Nat.sub_self, List.take_zero]
      rfl
  | case3 first rest missing ih =>
    have later := ih (front ++ [first])
    rw [List.length_append, List.append_assoc, List.singleton_append, List.length_singleton] at later
    obtain ⟨recognised, literals⟩ := later
    rw [Passage.ofText_letter missing, spansFrom_letter missing]
    have letter : (front ++ first :: rest).drop front.length =
        first :: (front ++ first :: rest).drop (front.length + 1) := by
      rw [List.drop_left, ← List.drop_drop, List.drop_left]
      rfl
    have row := recognised.inRow (by simp)
    obtain ⟨lead, others, outsideLater, outsideHere⟩ := outside_succ letter row
    refine ⟨recognised.of_succ fun spelling => not_standsAt_of_unread ?_, ?_⟩
    · rw [List.drop_left, missing]
    · rw [outsideHere]
      cases outsideLater.symm.trans literals
      rfl

theorem recognised_iff {text : Text} {spans' : List Span} :
    Recognised text 0 spans' ↔ spans' = spans text := by
  have recognised : Recognised text 0 (spans text) := (recognised_spansFrom [] text).1
  exact ⟨fun other => other.unique recognised, fun same => same ▸ recognised⟩

theorem outside_spans (text : Text) : text.outside 0 (spans text) = (Passage.ofText text).literals :=
  (recognised_spansFrom [] text).2

/-! ## Strays -/

/-- A delimiter begins at a place of a text. -/
def DelimiterAt (text : Text) (place : Nat) : Prop :=
  StandsAt ['{', '%'] text place ∨ StandsAt ['%', '}'] text place

/-- A snippet shows up to forty characters of a literal from its first delimiter on. -/
def Shows (literal snippet : Text) : Prop :=
  ∃ place, IsLeast {place | DelimiterAt literal place} place ∧
    snippet = (literal.drop place).take 40

theorem delimiterAt_cons_succ {c : Char} {rest : Text} {place : Nat} :
    DelimiterAt (c :: rest) (place + 1) ↔ DelimiterAt rest place := by
  have shift (literal : Text) :
      StandsAt literal (c :: rest) (place + 1) ↔ StandsAt literal rest place := by
    have moved := @standsAt_drop literal (c :: rest) 1 place (by simp)
    rw [Nat.add_comm]
    exact moved.symm
  rw [DelimiterAt, shift, shift, DelimiterAt]

theorem isLeast_of_fromDelimiter? {literal shown : Text}
    (found : fromDelimiter? literal = some shown) :
    ∃ place, IsLeast {place | DelimiterAt literal place} place ∧ shown = literal.drop place := by
  induction literal using fromDelimiter?.induct with
  | case1 => simp [fromDelimiter?] at found
  | case2 rest =>
    rw [fromDelimiter?] at found
    exact ⟨0, ⟨.inl ⟨[], rest, rfl, rfl⟩, fun _ _ => Nat.zero_le _⟩, (Option.some.inj found).symm⟩
  | case3 rest =>
    rw [fromDelimiter?] at found
    exact ⟨0, ⟨.inr ⟨[], rest, rfl, rfl⟩, fun _ _ => Nat.zero_le _⟩, (Option.some.inj found).symm⟩
  | case4 c rest notOpened notClosed ih =>
    rw [fromDelimiter?.eq_4 _ _ notOpened notClosed] at found
    obtain ⟨place, ⟨stands, least⟩, rfl⟩ := ih found
    refine ⟨place + 1, ⟨delimiterAt_cons_succ.mpr stands, fun other standsOther => ?_⟩, rfl⟩
    cases other with
    | zero =>
      rcases standsOther with ⟨before, after, same, empty⟩ | ⟨before, after, same, empty⟩
      · cases List.length_eq_zero_iff.mp empty
        cases same
        exact absurd rfl (notOpened after rfl)
      · cases List.length_eq_zero_iff.mp empty
        cases same
        exact absurd rfl (notClosed after rfl)
    | succ other => exact Nat.succ_le_succ (least (delimiterAt_cons_succ.mp standsOther))

theorem delimiterFree_iff {literal : Text} :
    DelimiterFree literal ↔ ∀ place, ¬ DelimiterAt literal place := by
  have stands (delimiter : Text) :
      delimiter <:+: literal ↔ ∃ place, StandsAt delimiter literal place :=
    ⟨fun ⟨before, after, same⟩ => ⟨_, before, after, same.symm, rfl⟩,
      fun ⟨_, before, after, same, _⟩ => ⟨before, after, same.symm⟩⟩
  simp only [DelimiterFree, stands, DelimiterAt, not_exists, not_or, forall_and]

instance (literal : Text) : Decidable (DelimiterFree literal) :=
  decidable_of_iff (fromDelimiter? literal = none) fromDelimiter?_eq_none_iff

theorem forall₂_shows (literals : List Text) :
    List.Forall₂ Shows (literals.filter fun literal => ¬ DelimiterFree literal)
      (literals.filterMap malformed?) := by
  induction literals with
  | nil => exact .nil
  | cons literal later ih =>
    cases found : fromDelimiter? literal with
    | none =>
      have free : DelimiterFree literal := fromDelimiter?_eq_none_iff.mp found
      rw [List.filter_cons_of_neg (by simpa using free),
        List.filterMap_cons_none (by rw [malformed?, found]; rfl)]
      exact ih
    | some shown =>
      have stray : ¬ DelimiterFree literal := by
        rw [← fromDelimiter?_eq_none_iff, found]
        simp
      obtain ⟨place, least, rfl⟩ := isLeast_of_fromDelimiter? found
      rw [List.filter_cons_of_pos (by simpa using stray),
        List.filterMap_cons_some (by rw [malformed?, found]; rfl)]
      exact .cons ⟨place, least, rfl⟩ ih

end Placeholder

theorem MatchMode.malformed_eq (mode : MatchMode) (content : Text) :
    mode.malformed content =
      ((mode.units content).flatMap fun unit => unit.outside 0 (Placeholder.spans unit)).filterMap
        Placeholder.malformed? := by
  simp only [malformed, passages, List.flatMap_map, Placeholder.outside_spans,
    List.filterMap_flatMap]

theorem Placeholder.exists_stray_iff {unit : Text} :
    (∃ fragment ∈ unit.outside 0 (spans unit), ¬ DelimiterFree fragment) ↔
      ∃ place, DelimiterAt unit place ∧
        ∀ span ∈ spans unit, place + 2 ≤ span.start ∨ span.stop ≤ place := by
  have row := (recognised_iff.mpr rfl : Recognised unit 0 (spans unit)).inRow (Nat.zero_le _)
  have opened := @exists_standsAt_outside_iff ['{', '%'] unit 0 (spans unit) row
  have closed := @exists_standsAt_outside_iff ['%', '}'] unit 0 (spans unit) row
  simp only [delimiterFree_iff, not_forall, not_not, DelimiterAt, exists_or, and_or_left, opened,
    closed]
  simp [or_and_right, exists_or]

/-- Strict and lenient compilation differ only where a delimiter is left over. Placeholders are
recognised in one way, from the left, and cut the units of a template into fragments. Lenient
compilation succeeds; it leaves one warning for each fragment that holds a delimiter, in order, and
each shows up to forty characters of its fragment from the first delimiter on. Strict compilation stops
with the snippet of the first of these warnings, and gives the same patterns where there is none. So it
fails exactly when a delimiter of some unit shares no character with a recognised placeholder. -/
theorem strict_stops_at_first_stray (mode : MatchMode) (label : String) (content : Text) :
    let lenient := Compiled.compile mode false label content
    let strict := Compiled.compile mode true label content
    let fragments := (mode.units content).flatMap fun unit =>
      unit.outside 0 (Placeholder.spans unit)
    (∀ unit spans, Placeholder.Recognised unit 0 spans ↔ spans = Placeholder.spans unit) ∧
    (∃ compiled, lenient.outcome = .ok compiled) ∧
    (∃ snippets,
      List.Forall₂ Placeholder.Shows (fragments.filter fun fragment => ¬ DelimiterFree fragment)
        snippets ∧
      lenient.messages Level.warning.weight = snippets.map (fun snippet =>
        (.warning, "Malformed placeholder in " ++ label ++ ": " ++ String.ofList (Text.quoted snippet) ++
          " will be matched literally")) ∧
      strict.outcome = match snippets with
        | [] => lenient.outcome
        | first :: _ => .error (.malformed label first)) ∧
    ((∃ failure, strict.outcome = .error failure) ↔
      ∃ unit ∈ mode.units content, ∃ place, Placeholder.DelimiterAt unit place ∧
        ∀ span ∈ Placeholder.spans unit, place + 2 ≤ span.start ∨ span.stop ≤ place) := by
  intro lenient strict fragments
  have snippets : mode.malformed content = fragments.filterMap Placeholder.malformed? :=
    mode.malformed_eq content
  have decided : strict.outcome = match mode.malformed content with
      | [] => lenient.outcome
      | first :: _ => .error (.malformed label first) := by
    rw [Compiled.outcome_compile_strict]
    cases mode.malformed content <;> rfl
  refine ⟨fun _ _ => Placeholder.recognised_iff, ⟨_, Compiled.outcome_compile_lenient _ _ _⟩,
    ⟨mode.malformed content, ?_, Compiled.warnings_compile mode label content, decided⟩, ?_⟩
  · rw [snippets]
    exact Placeholder.forall₂_shows fragments
  · rw [Compiled.exists_error_compile_strict_iff, ne_eq, malformed_eq_nil_iff]
    simp only [← Placeholder.exists_stray_iff, Placeholder.outside_spans, exists_rendering_iff,
      not_forall, exists_prop]

end Stencil
