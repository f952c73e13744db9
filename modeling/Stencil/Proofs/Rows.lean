import Stencil.Proofs.Cleaning
import Stencil.Proofs.WholeText

/-! Line by line extraction in closed form.

The text is cut into rows at line feeds only; a template is cut at every line break, so that none of
its literals asks for a line feed. As no gap crosses one either, a match lies within a row, and the
leftmost match lies in the first row that the literals fit.
-/

set_option autoImplicit false

namespace Stencil

/-! ## Lines and trimmed texts -/

namespace Text

theorem not_lineBreak_of_mem_lines {text line : Text} {c : Char} (member : line ∈ text.lines)
    (letter : c ∈ line) : isLineBreak c = false := by
  induction text using lines.induct generalizing line with
  | case1 => simp [lines] at member
  | case2 rest ih =>
    rw [lines] at member
    rcases List.mem_cons.mp member with rfl | member
    · exact absurd letter List.not_mem_nil
    · exact ih member letter
  | case3 first rest notPair ends ih =>
    rw [lines.eq_3 _ _ notPair, if_pos ends] at member
    rcases List.mem_cons.mp member with rfl | member
    · exact absurd letter List.not_mem_nil
    · exact ih member letter
  | case4 first rest notPair inside none_left ih =>
    rw [lines.eq_3 _ _ notPair, if_neg inside, none_left] at member
    cases List.mem_singleton.mp member
    cases List.mem_singleton.mp letter
    simpa using inside
  | case5 first rest notPair inside next later some_left ih =>
    rw [lines.eq_3 _ _ notPair, if_neg inside, some_left] at member
    rcases List.mem_cons.mp member with rfl | member
    · rcases List.mem_cons.mp letter with rfl | letter
      · simpa using inside
      · exact ih (some_left ▸ List.mem_cons_self) letter
    · exact ih (some_left ▸ List.mem_cons_of_mem _ member) letter

theorem not_mem_of_mem_splitOn {text row : Text} {c : Char} (member : row ∈ text.splitOn c) :
    c ∉ row := by
  induction text generalizing row with
  | nil => simp_all
  | cons first rest ih =>
    obtain ⟨next, later, split⟩ := List.exists_cons_of_ne_nil (List.splitOn_ne_nil c rest)
    rw [List.splitOn_cons_eq_if_modifyHead, split] at member
    rw [split] at ih
    -- A separator opens a row of its own; any other character joins the row behind it.
    by_cases same : first = c
    · rw [if_pos (by simpa using same)] at member
      rcases List.mem_cons.mp member with rfl | member
      · exact List.not_mem_nil
      · exact ih member
    · rw [if_neg (by simpa using same), List.modifyHead_cons] at member
      rcases List.mem_cons.mp member with rfl | member
      · rw [List.mem_cons, not_or]
        exact ⟨fun other => same other.symm, ih List.mem_cons_self⟩
      · exact ih (List.mem_cons_of_mem _ member)

end Text

theorem not_lineFeed_of_mem_pieces {content : Text} {passage : Passage}
    (member : passage ∈ MatchMode.line.passages content) {piece : Text}
    (asked : piece ∈ passage.pieces .line) : '\n' ∉ piece := by
  intro letter
  obtain ⟨unit, isUnit, rfl⟩ := List.mem_map.mp member
  obtain ⟨literal, isLiteral, rfl⟩ := List.mem_map.mp asked
  obtain ⟨line, isLine, rfl⟩ := List.mem_map.mp (List.mem_filter.mp isUnit).1
  have broken := Text.not_lineBreak_of_mem_lines isLine
    ((Text.trim_sublist line).subset (Passage.mem_of_mem_literals isLiteral letter))
  exact absurd broken (by decide)

theorem crosses_of_not_mem {text : Text} (noBreak : '\n' ∉ text) :
    ∀ c ∈ text, MatchMode.line.crosses c := by
  intro c letter
  have other : c ≠ '\n' := fun same => noBreak (same ▸ letter)
  simpa [MatchMode.crosses] using other

theorem exists_first {α : Type} {p : α → Prop} {members : List α} (some_member : ∃ a ∈ members, p a) :
    ∃ before first after, members = before ++ first :: after ∧ (∀ a ∈ before, ¬ p a) ∧ p first := by
  classical
  obtain ⟨a, isMember, holds⟩ := some_member
  obtain ⟨first, found⟩ := Option.isSome_iff_exists.mp
    (List.find?_isSome (p := fun a => decide (p a)) |>.mpr ⟨a, isMember, by simpa using holds⟩)
  obtain ⟨here, before, after, same, earlier⟩ := List.find?_eq_some_iff_append.mp found
  exact ⟨before, first, after, same, by simpa using earlier, by simpa using here⟩

/-- Rows above another, each with its line feed. -/
def rowsAbove (rows : List Text) : Text :=
  rows.flatMap (· ++ ['\n'])

theorem intercalate_split (above : List Text) (row : Text) (below : List Text) :
    ∃ tail, ['\n'].intercalate (above ++ row :: below) = rowsAbove above ++ row ++ tail ∧
      ∀ c ∈ tail.head?, c = '\n' := by
  induction above with
  | nil =>
    cases below with
    | nil => exact ⟨[], by simp [rowsAbove], by simp⟩
    | cons next below => exact ⟨'\n' :: ['\n'].intercalate (next :: below), by simp [rowsAbove], by simp⟩
  | cons first above ih =>
    obtain ⟨tail, joined, wall⟩ := ih
    refine ⟨tail, ?_, wall⟩
    rw [List.cons_append, List.intercalate_cons_of_ne_nil (by simp), joined]
    simp [rowsAbove]

namespace Pattern

variable {crosses : Char → Bool} {pattern : Pattern}

/-- The leftmost match lies in the first row that has one. -/
theorem LeftmostMatch.in_rows {above below : List Text} {row : Text} {start : Nat}
    {captures : Captures} (stop : crosses '\n' = false)
    (crossed : AsksWithin crosses pattern)
    (failed : ∀ other ∈ above, leftmost? crosses pattern other = none)
    (found : LeftmostMatch crosses pattern row start captures) :
    LeftmostMatch crosses pattern (['\n'].intercalate (above ++ row :: below))
      ((rowsAbove above).length + start) captures := by
  induction above with
  | nil =>
    obtain ⟨tail, joined, wall⟩ := intercalate_split [] row below
    rw [joined]
    simpa [rowsAbove] using found.append crossed fun c first => wall c first ▸ stop
  | cons first above ih =>
    obtain ⟨here, later⟩ := List.forall_mem_cons.mp failed
    -- Passing over a row moves the match by its length and by the line feed.
    have behind := (ih later).behind crossed stop here
    have width : (rowsAbove (first :: above)).length + start =
        first.length + 1 + ((rowsAbove above).length + start) := by
      simp only [rowsAbove, List.flatMap_cons, List.length_append, List.length_singleton]
      omega
    rw [List.cons_append, List.intercalate_cons_of_ne_nil (by simp), width, List.append_assoc]
    exact behind

theorem leftmost?_rows_none {rows : List Text} (stop : crosses '\n' = false)
    (crossed : AsksWithin crosses pattern) (nonempty : rows ≠ [])
    (failed : ∀ row ∈ rows, leftmost? crosses pattern row = none) :
    leftmost? crosses pattern (['\n'].intercalate rows) = none := by
  induction rows with
  | nil => exact absurd rfl nonempty
  | cons row rows ih =>
    obtain ⟨here, later⟩ := List.forall_mem_cons.mp failed
    cases rows with
    | nil => simpa using here
    | cons next rows =>
      rw [List.intercalate_cons_cons, List.append_assoc]
      exact leftmost?_append_none crossed stop here (ih (by simp) later)

end Pattern

namespace Passage

theorem asksWithin_of_mem_passages {content : Text} {passage : Passage}
    (member : passage ∈ MatchMode.line.passages content) :
    Pattern.AsksWithin MatchMode.line.crosses (passage.pattern .line) := by
  intro piece isPiece c letter
  have inside : ∀ text ∈ passage.pieces .line, c ∈ text → MatchMode.line.crosses c :=
    fun text asked => crosses_of_not_mem (not_lineFeed_of_mem_pieces member asked) c
  rw [pieces_eq] at inside
  rw [pattern_eq, Pattern.spaced] at isPiece
  rcases List.mem_cons.mp isPiece with rfl | isPiece
  · exact inside _ List.mem_cons_self letter
  · obtain ⟨text, asked, isPiece⟩ := List.mem_flatMap.mp isPiece
    rcases List.mem_cons.mp isPiece with rfl | isPiece
    · exact absurd letter List.not_mem_nil
    · cases List.mem_singleton.mp isPiece
      exact inside _ (List.mem_cons_of_mem _ asked) letter

section
variable {content trimmed : Text} {passage : Passage}

theorem leftmostMatch_in_first_row {above below : List Text} {row : Text} {start : Nat}
    {starts : List Nat} (member : passage ∈ MatchMode.line.passages content)
    (split : trimmed.splitOn '\n' = above ++ row :: below)
    (missing : ∀ other ∈ above, ¬ Text.InOrder (passage.pieces .line) other)
    (placed : Placed row (passage.pieces .line) (start :: starts)) :
    Pattern.LeftmostMatch MatchMode.line.crosses (passage.pattern .line) trimmed
      ((rowsAbove above).length + start)
      ((gaps row (passage.pieces .line) (start :: starts)).map some) := by
  have isRow : row ∈ trimmed.splitOn '\n' := by
    rw [split]
    exact List.mem_append_right _ List.mem_cons_self
  have crossed := crosses_of_not_mem (Text.not_mem_of_mem_splitOn isRow)
  have failed := fun other isAbove => leftmost?_of_not_inOrder (missing other isAbove)
  have joined : ['\n'].intercalate (trimmed.splitOn '\n') = trimmed :=
    List.intercalate_splitOn '\n'
  rw [← joined, split]
  exact (leftmostMatch_of_placed crossed placed).in_rows (by decide)
    (asksWithin_of_mem_passages member) failed

theorem values?_of_no_row (member : passage ∈ MatchMode.line.passages content)
    (missing : ∀ row ∈ trimmed.splitOn '\n', ¬ Text.InOrder (passage.pieces .line) row) :
    passage.values? .line trimmed = none := by
  have failed := fun row isRow => leftmost?_of_not_inOrder (missing row isRow)
  have none_found := Pattern.leftmost?_rows_none (by decide) (asksWithin_of_mem_passages member)
    (List.splitOn_ne_nil '\n' trimmed) failed
  rw [List.intercalate_splitOn] at none_found
  rw [values?, Pattern.search?_eq_leftmost?, none_found, Option.map_none]

theorem values?_isSome_iff_row (member : passage ∈ MatchMode.line.passages content) :
    (passage.values? .line trimmed).isSome ↔
      ∃ row ∈ trimmed.splitOn '\n', Text.InOrder (passage.pieces .line) row := by
  constructor
  · intro captured
    by_contra missing
    rw [values?_of_no_row member fun row isRow ordered => missing ⟨row, isRow, ordered⟩] at captured
    exact absurd captured (by simp)
  · intro fits
    obtain ⟨above, row, below, split, missing, ordered⟩ := exists_first fits
    obtain ⟨start, starts, placed⟩ := exists_placed ordered
    have found := leftmostMatch_in_first_row member split missing placed
    rw [isSome_values?, Pattern.search?_eq_leftmost?, found.reported]
    rfl

end

end Passage

theorem Compiled.found_line_eq_nil_iff {content trimmed : Text} :
    found .line content trimmed = [] ↔
      ∀ passage ∈ MatchMode.line.passages content, passage.slots ≠ [] →
        ∀ row ∈ trimmed.splitOn '\n', ¬ Text.InOrder (passage.pieces .line) row := by
  rw [found, List.flatMap_eq_nil_iff]
  refine forall₂_congr fun passage member => ?_
  rw [Passage.found_eq_nil_iff]
  refine imp_congr_right fun _ => ?_
  rw [← Option.not_isSome_iff_eq_none, Passage.values?_isSome_iff_row member]
  simp

/-- A template taken line by line. Each of its lines is found in the first row of the text in which
its literals stand in order, at the linear placement within that row, and is not found when there is
no such row. Each name gets the cleaned text of the last gap among the lines that are found. -/
theorem line_extraction_by_rows (content text : Text) (strict : Bool) (label source : String)
    (compiled : Compiled)
    (compiles : (Compiled.compile .line strict label content).outcome = .ok compiled) :
    let trimmed := MatchMode.line.normalize text
    let rows := trimmed.splitOn '\n'
    let passages := MatchMode.line.passages content
    compiled.patterns = passages.map (Passage.pattern .line) ∧
    (∀ passage ∈ passages,
      let pieces := passage.pieces .line
      ((Pattern.search? .line (passage.pattern .line) trimmed).isSome ↔
        ∃ row ∈ rows, Text.InOrder pieces row) ∧
      ∀ above row below, rows = above ++ row :: below →
        (∀ other ∈ above, ¬ Text.InOrder pieces other) → Text.InOrder pieces row →
        ∃ start starts,
          Placed row pieces (start :: starts) ∧
          rowsAbove above ++ row <+: trimmed ∧
          Pattern.LeftmostMatch MatchMode.line.crosses (passage.pattern .line) trimmed
            ((rowsAbove above).length + start)
            ((gaps row pieces (start :: starts)).map some) ∧
          Text.weave pieces (gaps row pieces (start :: starts)) <+: row.drop start ∧
          Pattern.search? .line (passage.pattern .line) trimmed =
            some ((gaps row pieces (start :: starts)).map some)) ∧
    ∃ result,
      compiled.extract .never source trimmed = .ok result ∧
      (result = none ↔ ∀ passage ∈ passages, passage.slots ≠ [] →
        ∀ row ∈ rows, ¬ Text.InOrder (passage.pieces .line) row) ∧
      ∀ extraction, result = some extraction →
        extraction.source = source ∧
        ∀ name, extraction.values.get? name =
          (lastUnder (passages.flatMap (Passage.found .line trimmed)) name).map Text.clean := by
  intro trimmed rows passages
  cases Compiled.eq_ofTemplate_of_compile compiles
  refine ⟨by simp only [Compiled.ofTemplate, passages], fun passage member => ⟨?_, ?_⟩,
    _, Compiled.extract_ofTemplate .line content trimmed source, ?_, ?_⟩
  · rw [← Passage.isSome_values?]
    exact Passage.values?_isSome_iff_row member
  · intro above row below split missing ordered
    obtain ⟨start, starts, placed⟩ := Passage.exists_placed ordered
    have found := Passage.leftmostMatch_in_first_row member split missing placed
    refine ⟨start, starts, placed, ?_, found, ?_, ?_⟩
    · obtain ⟨tail, joined, -⟩ := intercalate_split above row below
      rw [← split, List.intercalate_splitOn] at joined
      exact ⟨tail, joined.symm⟩
    · rw [Passage.pieces_eq] at placed ⊢
      exact placed.covers
    · rw [Pattern.search?_eq_leftmost?, found.reported]
  · rw [← Compiled.found_line_eq_nil_iff]
    cases Compiled.found .line content trimmed <;> simp
  · intro extraction present
    split at present
    · simp at present
    · cases present
      refine ⟨rfl, fun name => ?_⟩
      rw [Bindings.get?_report]
      exact Option.or_none

theorem line_extraction_by_rows_second_row :
    let content := "k: {%X%} / {%Y%}\n\n[{%Z%}]".toList
    let trimmed := MatchMode.line.normalize "k: a\nk: 1 / 2 / 3\nk: 4 / 5".toList
    let passage := Passage.ofText "k: {%X%} / {%Y%}".toList
    let row := "k: 1 / 2 / 3".toList
    ∃ compiled extraction,
      (Compiled.compile .line true "form" content).outcome = .ok compiled ∧
      compiled.extract .never "form" trimmed = .ok (some extraction) ∧
      ∃ start starts,
        Placed row ["k: ".toList, " / ".toList, []] (start :: starts) ∧
        Pattern.LeftmostMatch MatchMode.line.crosses (passage.pattern .line) trimmed (5 + start)
          ((gaps row ["k: ".toList, " / ".toList, []] (start :: starts)).map some) := by
  intro content trimmed passage row
  have compiles : (Compiled.compile .line true "form" content).outcome =
      .ok (Compiled.ofTemplate .line content) := by
    have clear : (MatchMode.line.malformed content).head? = none := by decide +kernel
    rw [Compiled.outcome_compile_strict, clear]
  have rows : trimmed.splitOn '\n' = ["k: a".toList] ++ row :: ["k: 4 / 5".toList] := by
    decide +kernel
  have pieces : passage.pieces .line = ["k: ".toList, " / ".toList, []] := by decide +kernel
  have member : passage ∈ MatchMode.line.passages content := by decide +kernel
  have fits : Text.InOrder (passage.pieces .line) row := by rw [pieces]; decide +kernel
  obtain ⟨-, lines, result, extracts, nothing, -⟩ := line_extraction_by_rows content
    "k: a\nk: 1 / 2 / 3\nk: 4 / 5".toList true "form" "form" _ compiles
  obtain ⟨start, starts, placed, -, found, -⟩ := (lines passage member).2 ["k: a".toList] row
    ["k: 4 / 5".toList] rows (by rw [pieces]; decide +kernel) fits
  rw [pieces] at placed found
  cases result with
  | none =>
    refine absurd fits (nothing.mp rfl passage member (by decide +kernel) row ?_)
    rw [rows]
    exact List.mem_append_right _ List.mem_cons_self
  | some extraction => exact ⟨_, extraction, compiles, extracts, start, starts, placed, found⟩

end Stencil
