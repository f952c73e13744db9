import Stencil.Files.Memory
import Stencil.Proofs.Extracting
import Stencil.Proofs.Rows

/-! The order of the rows of a text.

A template line is searched for row by row, so that the order of rows does not matter when at most one
of them fits it. What stands in the way is that a text loses the blanks at its ends before it is
searched: which row is the first or the last decides which blanks are lost. Where the blanks at the
ends of rows decide nothing, rows may be shuffled.
-/

set_option autoImplicit false

namespace Stencil

/-! ## Trimming rows that are joined -/

namespace Text

theorem trimStart_intercalate {rows : List Text} (nonempty : rows ≠ []) :
    ∃ (above : List Text) (row : Text) (below : List Text),
      rows = above ++ row :: below ∧ (∀ other ∈ above, other.trimStart = []) ∧
      trimStart (['\n'].intercalate rows) = ['\n'].intercalate (row.trimStart :: below) := by
  induction rows with
  | nil => exact absurd rfl nonempty
  | cons first rest ih =>
    cases rest with
    | nil => exact ⟨[], first, [], rfl, by simp, by simp⟩
    | cons next rest =>
      rw [List.intercalate_cons_cons, List.append_assoc, trimStart_append]
      by_cases blank : first.trimStart = []
      · obtain ⟨above, row, below, split, blanks, trimmed⟩ := ih (by simp)
        refine ⟨first :: above, row, below, by rw [split, List.cons_append],
          List.forall_mem_cons.mpr ⟨blank, blanks⟩, ?_⟩
        rw [if_pos blank, trimStart_append, if_pos (by decide), trimmed]
      · refine ⟨[], first, next :: rest, rfl, by simp, ?_⟩
        rw [if_neg blank, List.intercalate_cons_cons, List.append_assoc]

theorem mem_intercalate_of_mem {rows : List Text} {row : Text} {c : Char} (member : row ∈ rows)
    (letter : c ∈ row) : c ∈ ['\n'].intercalate rows := by
  obtain ⟨above, below, rfl⟩ := List.append_of_mem member
  obtain ⟨tail, joined, -⟩ := intercalate_split above row below
  rw [joined]
  exact List.mem_append_left _ (List.mem_append_right _ letter)

theorem trimEnd_intercalate {rows : List Text} (nonempty : rows ≠ []) :
    ∃ (above : List Text) (row : Text) (below : List Text),
      rows = above ++ row :: below ∧ (∀ other ∈ below, other.trimEnd = []) ∧
      trimEnd (['\n'].intercalate rows) = ['\n'].intercalate (above ++ [row.trimEnd]) := by
  induction rows with
  | nil => exact absurd rfl nonempty
  | cons first rest ih =>
    cases rest with
    | nil => exact ⟨[], first, [], rfl, by simp, by simp⟩
    | cons next rest =>
      rw [List.intercalate_cons_cons, List.append_assoc, trimEnd_append, trimEnd_append]
      by_cases blank : trimEnd (['\n'].intercalate (next :: rest)) = []
      · refine ⟨[], first, next :: rest, rfl, fun other member => ?_, ?_⟩
        · rw [trimEnd_eq_nil_iff] at blank ⊢
          exact fun c letter => blank c (mem_intercalate_of_mem member letter)
        · rw [if_pos blank, if_pos (by decide), List.nil_append, List.intercalate_singleton]
      · obtain ⟨above, row, below, split, blanks, trimmed⟩ := ih (by simp)
        refine ⟨first :: above, row, below, by rw [split, List.cons_append], blanks, ?_⟩
        show _ = ['\n'].intercalate (first :: (above ++ [row.trimEnd]))
        rw [if_neg blank, if_neg (by simp), trimmed, List.intercalate_cons_of_ne_nil (by simp),
          List.append_assoc]

theorem mem_of_cons_eq_split {first row : Text} {rest above below : List Text}
    (split : first :: rest = above ++ row :: below) :
    (∀ other ∈ below, other ∈ rest) ∧ (row = first ∨ row ∈ rest) := by
  cases above with
  | nil =>
    obtain ⟨rfl, rfl⟩ := List.cons.inj split
    exact ⟨fun _ member => member, .inl rfl⟩
  | cons _ above =>
    obtain ⟨-, rfl⟩ := List.cons.inj split
    exact ⟨fun _ member => List.mem_append_right _ (List.mem_cons_of_mem _ member),
      .inr (List.mem_append_right _ List.mem_cons_self)⟩

/-- A search by rows that is indifferent to the blanks at the ends of rows goes on as before when the
text is trimmed. Blank rows may get lost: they must not be found, unless there is no other row. -/
theorem exists_rows_of_trim {Result : Type} {find : Text → Option Result} {rows : List Text}
    (nonempty : rows ≠ []) (starts : ∀ row ∈ rows, find row.trimStart = find row)
    (ends : ∀ row ∈ rows, find row.trimEnd = find row)
    (both : ∀ row ∈ rows, find row.trim = find row)
    (blank : 1 < rows.length → ∀ row ∈ rows, row.trim = [] → find row = none) :
    ∃ kept, kept ≠ [] ∧ (∀ row ∈ kept, ∃ other ∈ rows, row ⊆ other) ∧
      trim (['\n'].intercalate rows) = ['\n'].intercalate kept ∧
      kept.findSome? find = rows.findSome? find := by
  obtain ⟨above, row, below, rfl, blanks, started⟩ := trimStart_intercalate nonempty
  obtain ⟨above', row', below', split, blanks', ended⟩ :=
    @trimEnd_intercalate (row.trimStart :: below) (by simp)
  obtain ⟨isBelow', isRow'⟩ := mem_of_cons_eq_split split
  have isRow : row ∈ above ++ row :: below := List.mem_append_right _ List.mem_cons_self
  have isBelow : ∀ other ∈ below, other ∈ above ++ row :: below := fun other member =>
    List.mem_append_right _ (List.mem_cons_of_mem _ member)
  refine ⟨above' ++ [row'.trimEnd], by simp, ?_, by rw [trim, started, ended], ?_⟩
  · have source : ∀ one ∈ above' ++ row' :: below', ∃ other ∈ above ++ row :: below, one ⊆ other := by
      rw [← split]
      intro one member
      rcases List.mem_cons.mp member with rfl | member
      · exact ⟨row, isRow, (trimStart_suffix row).subset⟩
      · exact ⟨one, isBelow one member, List.Subset.refl one⟩
    intro one member
    rcases List.mem_append.mp member with member | member
    · exact source one (List.mem_append_left _ member)
    · cases List.mem_singleton.mp member
      obtain ⟨other, isOther, inside⟩ := source row' (by simp)
      exact ⟨other, isOther, List.Subset.trans (trimEnd_prefix_self row').subset inside⟩
  -- Only blank rows get lost, and these only where another row is left.
  have lostAbove : above.findSome? find = none := by
    rw [List.findSome?_eq_none_iff]
    intro other member
    have several := List.length_pos_of_mem member
    apply blank (by simp; omega) other (List.mem_append_left _ member)
    rw [trim, blanks other member]
    rfl
  have lostBelow : below'.findSome? find = none := by
    rw [List.findSome?_eq_none_iff]
    intro other member
    have several := List.length_pos_of_mem (isBelow' other member)
    apply blank (by simp; omega) other (isBelow other (isBelow' other member))
    rw [← trimStart_trimEnd, blanks' other member]
    rfl
  have trimmed : find row'.trimEnd = find row' := by
    rcases isRow' with rfl | member
    · rw [← trim, both row isRow, starts row isRow]
    · exact ends row' (isBelow row' member)
  calc (above' ++ [row'.trimEnd]).findSome? find
      = (above' ++ row' :: below').findSome? find := by
        simp only [List.findSome?_append, List.findSome?_cons, trimmed, lostBelow,
          List.findSome?_nil]
    _ = (above ++ row :: below).findSome? find := by
        rw [← split]
        simp only [List.findSome?_append, List.findSome?_cons, starts row isRow, lostAbove,
          Option.none_or]

end Text

/-! ## Blanks in front of a row -/

namespace Pattern

variable {crosses : Char → Bool} {front text : Text}

theorem longestGap_behind {Result : Type} {next : Text → Option Result} {taken : Text}
    {result : Result} (crossed : ∀ c ∈ front, crosses c)
    (found : longestGap crosses next text = some (taken, result)) :
    longestGap crosses next (front ++ text) = some (front ++ taken, result) := by
  induction front with
  | nil => exact found
  | cons c front ih =>
    obtain ⟨here, later⟩ := List.forall_mem_cons.mp crossed
    rw [List.cons_append, longestGap, if_pos here, ih later]
    rfl

theorem leftmost?_behind {c : Char} {literal : Text} {pattern : Pattern} (absent : c ∉ front) :
    leftmost? crosses (.literal (c :: literal) :: pattern) (front ++ text) =
      leftmost? crosses (.literal (c :: literal) :: pattern) text := by
  induction front with
  | nil => rfl
  | cons d front ih =>
    rw [List.mem_cons, not_or] at absent
    have unread : (c :: literal).isPrefixOf (d :: (front ++ text)) = false := by
      simp [List.isPrefixOf, absent.1]
    rw [List.cons_append, leftmost?, matchHere?, unread, if_neg (by simp)]
    exact ih absent.2

theorem matchHere?_gap (pattern : Pattern) (text : Text) :
    matchHere? crosses (.literal [] :: .gap :: pattern) text =
      (longestGap crosses (matchHere? crosses pattern) text).map fun (taken, captures) =>
        some taken :: captures := rfl

theorem leftmost?_of_longestGap {pattern : Pattern} {taken : Text} {captures : Captures}
    (longest : longestGap crosses (matchHere? crosses pattern) text = some (taken, captures)) :
    leftmost? crosses (.literal [] :: .gap :: pattern) text = some (some taken :: captures) := by
  have here : matchHere? crosses (.literal [] :: .gap :: pattern) text =
      some (some taken :: captures) := by
    rw [matchHere?_gap, longest]
    rfl
  cases text with
  | nil => exact here
  | cons c rest => rw [leftmost?, here]

end Pattern

namespace Passage

theorem not_blank_of_head?_lead {content : Text} {passage : Passage}
    (member : passage ∈ MatchMode.line.passages content) {c : Char}
    (first : c ∈ passage.lead.head?) : Text.isBlank c = false := by
  obtain ⟨unit, isUnit, rfl⟩ := List.mem_map.mp member
  obtain ⟨line, -, rfl⟩ := List.mem_map.mp (List.mem_filter.mp isUnit).1
  apply @Text.not_blank_of_head?_trim line
  obtain ⟨behind, whole⟩ := lead_prefix line.trim
  cases lead : (ofText line.trim).lead with
  | nil => simp [lead] at first
  | cons d rest =>
    rw [lead] at first whole
    rw [← whole]
    exact first

/-- The cleaned values of a search. -/
def cleaned? (mode : MatchMode) (passage : Passage) (text : Text) : Option (List Text) :=
  (passage.values? mode text).map fun values => values.map Text.clean

section
variable {content : Text} {passage : Passage}

theorem values?_intercalate (member : passage ∈ MatchMode.line.passages content)
    {rows : List Text} (nonempty : rows ≠ []) (unbroken : ∀ row ∈ rows, '\n' ∉ row) :
    passage.values? .line (['\n'].intercalate rows) = rows.findSome? (passage.values? .line) := by
  have split : (['\n'].intercalate rows).splitOn '\n' = rows :=
    List.splitOn_intercalate '\n' unbroken nonempty
  by_cases fits : ∃ row ∈ rows, Text.InOrder (passage.pieces .line) row
  · obtain ⟨above, row, below, rfl, missing, ordered⟩ := exists_first fits
    obtain ⟨start, starts, placed⟩ := exists_placed ordered
    have found := leftmostMatch_in_first_row member split missing placed
    have isRow : row ∈ above ++ row :: below := List.mem_append_right _ List.mem_cons_self
    have crossed := crosses_of_not_mem (unbroken row isRow)
    have passed : above.findSome? (passage.values? .line) = none := by
      rw [List.findSome?_eq_none_iff]
      exact fun other isAbove => values?_of_not_inOrder (missing other isAbove)
    rw [List.findSome?_append, passed, Option.none_or, List.findSome?_cons,
      values?_of_placed crossed placed, values?_eq_some_iff, Pattern.search?_eq_leftmost?]
    exact found.reported
  · have missing : ∀ row ∈ rows, ¬ Text.InOrder (passage.pieces .line) row :=
      fun row isRow ordered => fits ⟨row, isRow, ordered⟩
    rw [values?_of_no_row member (by rwa [split]), eq_comm, List.findSome?_eq_none_iff]
    exact fun row isRow => values?_of_not_inOrder (missing row isRow)

/-- Blanks in front of a row that a template line fits come to be in front of its first value, where
they are cleaned away, or of its first literal. -/
theorem cleaned?_blanks_append (member : passage ∈ MatchMode.line.passages content)
    (placeholders : passage.slots ≠ []) {blanks body : Text}
    (blank : ∀ c ∈ blanks, Text.isBlank c = true) (unbroken : '\n' ∉ blanks ++ body)
    (fits : Text.InOrder (passage.pieces .line) body) :
    passage.cleaned? .line (blanks ++ body) = passage.cleaned? .line body := by
  have begins := fun c => not_blank_of_head?_lead (c := c) member
  obtain ⟨crossed, crossedBody⟩ := List.forall_mem_append.mp (crosses_of_not_mem unbroken)
  obtain ⟨start, starts, placed⟩ := exists_placed fits
  have found := (leftmostMatch_of_placed crossedBody placed).here
  obtain ⟨lead, slots⟩ := passage
  unfold cleaned? values?
  rw [Pattern.search?_eq_leftmost?, Pattern.search?_eq_leftmost?]
  cases lead with
  | cons c lead =>
    -- The search passes over the blanks, none of which is the first letter.
    have visible : Text.isBlank c = false := begins c rfl
    have absent : c ∉ blanks := fun isBlank => by simp [blank c isBlank] at visible
    congr 2
    exact Pattern.leftmost?_behind absent
  | nil =>
    obtain ⟨slot, slots, rfl⟩ := List.exists_cons_of_ne_nil placeholders
    -- The first gap begins where the search does, at the first blank.
    have atStart : start = 0 := by
      rw [pieces_eq] at placed
      cases placed with
      | mk least _ _ => exact Nat.le_zero.mp (least.2 ⟨[], body, rfl, rfl⟩)
    subst atStart
    have shape : (⟨[], slot :: slots⟩ : Passage).pattern .line = .literal [] :: .gap ::
        .literal slot.after :: slots.flatMap fun slot => [.gap, .literal slot.after] := rfl
    rw [List.drop_zero, shape, Pattern.matchHere?_gap] at found
    obtain ⟨⟨taken, captures⟩, longest, -⟩ := Option.map_eq_some_iff.mp found
    have longer := Pattern.longestGap_behind crossed longest
    rw [shape, Pattern.leftmost?_of_longestGap longest, Pattern.leftmost?_of_longestGap longer]
    simp only [Option.map_some, List.filterMap_cons, id_eq, List.map_cons,
      Text.clean_blanks_append blank]

/-! ## The ends of rows -/

theorem isSome_cleaned?_iff {text : Text} (unbroken : '\n' ∉ text) :
    (passage.cleaned? .line text).isSome ↔ Text.InOrder (passage.pieces .line) text := by
  rw [cleaned?, Option.isSome_map, isSome_values?_iff (crosses_of_not_mem unbroken)]

theorem cleaned?_eq_none {text : Text} (missing : ¬ Text.InOrder (passage.pieces .line) text) :
    passage.cleaned? .line text = none := by
  unfold cleaned?
  rw [values?_of_not_inOrder missing, Option.map_none]

theorem cleaned?_trimStart_of_inOrder (member : passage ∈ MatchMode.line.passages content)
    (placeholders : passage.slots ≠ []) {text : Text} (unbroken : '\n' ∉ text)
    (fits : Text.InOrder (passage.pieces .line) text.trimStart) :
    passage.cleaned? .line text.trimStart = passage.cleaned? .line text := by
  obtain ⟨blanks, blank, whole⟩ := Text.exists_blanks_append_trimStart text
  rw [whole] at unbroken
  have behind := cleaned?_blanks_append member placeholders blank unbroken fits
  rw [← whole] at behind
  exact behind.symm

theorem inOrder_of_trimEnd {text : Text}
    (fits : Text.InOrder (passage.pieces .line) text.trimEnd) :
    Text.InOrder (passage.pieces .line) text := by
  obtain ⟨tail, whole⟩ := Text.trimEnd_prefix_self text
  rw [← whole]
  exact fits.append_right tail

section
variable (member : passage ∈ MatchMode.line.passages content) (placeholders : passage.slots ≠ [])
  {row : Text} (unbroken : '\n' ∉ row)
  (margin : passage.cleaned? .line row.trim = passage.cleaned? .line row)
include member placeholders unbroken margin

theorem cleaned?_trimStart : passage.cleaned? .line row.trimStart = passage.cleaned? .line row := by
  by_cases fits : Text.InOrder (passage.pieces .line) row.trimStart
  · exact cleaned?_trimStart_of_inOrder member placeholders unbroken fits
  · have missing : ¬ Text.InOrder (passage.pieces .line) row.trim := fun ordered =>
      fits (inOrder_of_trimEnd ordered)
    rw [cleaned?_eq_none fits, ← margin, cleaned?_eq_none missing]

theorem cleaned?_trimEnd : passage.cleaned? .line row.trimEnd = passage.cleaned? .line row := by
  have inside : '\n' ∉ row.trimEnd := fun broken =>
    unbroken ((Text.trimEnd_prefix_self row).subset broken)
  by_cases fits : Text.InOrder (passage.pieces .line) row.trim
  · rw [← Text.trimStart_trimEnd] at fits
    have started := cleaned?_trimStart_of_inOrder member placeholders inside fits
    rw [← started, Text.trimStart_trimEnd, margin]
  · rw [cleaned?_eq_none fits] at margin
    have missing : ¬ Text.InOrder (passage.pieces .line) row := by
      rw [← isSome_cleaned?_iff unbroken, ← margin]
      simp
    rw [cleaned?_eq_none fun ordered => missing (inOrder_of_trimEnd ordered), margin]

end

/-- A trimmed text is searched as its rows are, where at most one row fits the template line and the
blanks at the ends of rows decide nothing. -/
theorem cleaned?_trim_intercalate (member : passage ∈ MatchMode.line.passages content)
    (placeholders : passage.slots ≠ []) {rows : List Text} (nonempty : rows ≠ [])
    (unbroken : ∀ row ∈ rows, '\n' ∉ row)
    (once : rows.countP (fun row => Text.InOrder (passage.pieces .line) row) ≤ 1)
    (margins : ∀ row ∈ rows, passage.cleaned? .line row.trim = passage.cleaned? .line row) :
    passage.cleaned? .line (Text.trim (['\n'].intercalate rows)) =
      rows.findSome? (passage.cleaned? .line) := by
  have blank : 1 < rows.length → ∀ row ∈ rows, row.trim = [] →
      passage.cleaned? .line row = none := by
    intro several row isRow empty
    by_contra found
    -- A template line that fits a blank row consists of gaps, so that it fits every row.
    have fits : Text.InOrder (passage.pieces .line) [] := by
      rw [← isSome_cleaned?_iff (by simp), ← empty, margins row isRow]
      exact Option.isSome_iff_ne_none.mpr found
    have every : rows.countP (fun row => Text.InOrder (passage.pieces .line) row) = rows.length := by
      rw [List.countP_eq_length]
      exact fun other _ => decide_eq_true (fits.append_right other)
    omega
  obtain ⟨kept, some_kept, letters, trimmed, found⟩ := Text.exists_rows_of_trim nonempty
    (fun row isRow => cleaned?_trimStart member placeholders (unbroken row isRow) (margins row isRow))
    (fun row isRow => cleaned?_trimEnd member placeholders (unbroken row isRow) (margins row isRow))
    margins blank
  have unbroken' : ∀ row ∈ kept, '\n' ∉ row := by
    intro row isKept broken
    obtain ⟨other, isRow, inside⟩ := letters row isKept
    exact unbroken other isRow (inside broken)
  rw [trimmed, ← found, cleaned?, values?_intercalate member some_kept unbroken',
    List.map_findSome?]
  rfl

end

theorem map_clean_found (mode : MatchMode) (passage : Passage) (text : Text) :
    ((passage.found mode text).map fun (name, value) => (name, Text.clean value)) =
      passage.names.zip ((passage.cleaned? mode text).getD []) := by
  unfold found cleaned?
  cases passage.values? mode text with
  | none => simp
  | some values => exact List.zip_map_right.symm

end Passage

/-! ## Shuffled rows -/

theorem findSome?_eq_of_perm {Result : Type} {find : Text → Option Result}
    {rows shuffled : List Text} (perm : shuffled.Perm rows)
    (once : rows.countP (fun row => (find row).isSome) ≤ 1) :
    shuffled.findSome? find = rows.findSome? find := by
  have results := perm.filterMap find
  rw [← List.length_filterMap_eq_countP] at once
  rw [← List.head?_filterMap, ← List.head?_filterMap]
  match found : rows.filterMap find with
  | [] =>
    rw [found] at results
    rw [results.eq_nil]
  | [result] =>
    rw [found] at results
    rw [results.eq_singleton]
  | _ :: _ :: _ =>
    rw [found] at once
    simp at once

theorem Compiled.map_clean_found_congr {mode : MatchMode} {content text other : Text}
    (same : ∀ passage ∈ mode.passages content, passage.slots ≠ [] →
      passage.cleaned? mode text = passage.cleaned? mode other) :
    ((found mode content text).map fun (name, value) => (name, Text.clean value)) =
      (found mode content other).map fun (name, value) => (name, Text.clean value) := by
  unfold found
  rw [List.map_flatMap, List.map_flatMap]
  apply List.flatMap_congr
  intro passage member
  rw [Passage.map_clean_found, Passage.map_clean_found]
  by_cases placeholders : passage.slots = []
  · simp [Passage.names, placeholders]
  · rw [same passage member placeholders]

/-- Rows can be shuffled without changing what a text yields in line mode, where every template line
fits one of them at most and reads the same values from a row with and without the blanks at its
ends. -/
theorem shuffled_rows_yield_the_same (extractor : Extractor) (mode : Option MatchMode)
    (content : Text) (rows shuffled : List Text) (source : String)
    (lenient : extractor.strict = false) (unlimited : extractor.timeLimit = none)
    (byLine : mode.getD extractor.mode = .line)
    (unbroken : ∀ row ∈ rows, '\n' ∉ row) (perm : shuffled.Perm rows)
    (once : ∀ passage ∈ MatchMode.line.passages content, passage.slots ≠ [] →
      rows.countP (fun row => Text.InOrder (passage.pieces .line) row) ≤ 1)
    (margins : ∀ passage ∈ MatchMode.line.passages content, passage.slots ≠ [] →
      ∀ row ∈ rows, passage.cleaned? .line row.trim = passage.cleaned? .line row) :
    let outcome := fun rows : List Text => (extractor.extractText extractor.timeLimit.cutoff
      (['\n'].intercalate rows) content mode source).outcome
    ∃ result, outcome rows = .ok result ∧ outcome shuffled = .ok result := by
  intro outcome
  have same : ∀ passage ∈ MatchMode.line.passages content, passage.slots ≠ [] →
      passage.cleaned? .line (Text.trim (['\n'].intercalate shuffled)) =
        passage.cleaned? .line (Text.trim (['\n'].intercalate rows)) := by
    intro passage member placeholders
    have unique := once passage member placeholders
    have margin := margins passage member placeholders
    by_cases empty : rows = []
    · subst empty
      rw [perm.eq_nil]
    · have shuffled_some : shuffled ≠ [] := by
        rintro rfl
        exact empty perm.symm.eq_nil
      have fitted : rows.countP (fun row => (passage.cleaned? .line row).isSome) ≤ 1 := by
        refine le_of_eq_of_le (List.countP_congr fun row isRow => ?_) unique
        rw [Passage.isSome_cleaned?_iff (unbroken row isRow), decide_eq_true_iff]
      rw [Passage.cleaned?_trim_intercalate member placeholders empty unbroken unique margin,
        Passage.cleaned?_trim_intercalate member placeholders shuffled_some
          (fun row isRow => unbroken row (perm.mem_iff.mp isRow))
          ((perm.countP_eq _).trans_le unique)
          fun row isRow => margin row (perm.mem_iff.mp isRow)]
      exact findSome?_eq_of_perm perm fitted
  have reported := Compiled.map_clean_found_congr same
  have nothing := congrArg List.isEmpty reported
  rw [List.isEmpty_map, List.isEmpty_map] at nothing
  refine ⟨_, extractor.outcome_extractText_lenient lenient unlimited _ content mode source, ?_⟩
  simp only [outcome, extractor.outcome_extractText_lenient lenient unlimited, byLine,
    MatchMode.normalize, Bindings.report_eq_bindAll, reported, nothing]

theorem shuffled_rows_yield_the_same_indented :
    let content := "Name: {%X%}\n{%Y%} years".toList
    let rows := ["  Name: Al ".toList, [], "30 years".toList]
    let shuffled := ["30 years".toList, "  Name: Al ".toList, []]
    let repository : Repository :=
      { files := MemoryFiles.empty.fileSystem, scoring := fun _ _ => .zero, mode := .whole }
    let extractor : Extractor := { repository, mode := .line, strict := false, timeLimit := none }
    ∃ result,
      (extractor.extractText .never (['\n'].intercalate rows) content none "form").outcome =
        .ok result ∧
      (extractor.extractText .never (['\n'].intercalate shuffled) content none "form").outcome =
        .ok result := by
  intro content rows shuffled repository extractor
  have passages : MatchMode.line.passages content =
      [⟨"Name: ".toList, [⟨"X".toList, []⟩]⟩, ⟨[], [⟨"Y".toList, " years".toList⟩]⟩] := by
    decide +kernel
  apply shuffled_rows_yield_the_same extractor none content rows shuffled "form" rfl rfl rfl
  · decide +kernel
  · decide +kernel
  · rw [passages]
    decide +kernel
  · rw [passages]
    decide +kernel

/-- The blank behind the colon belongs to the template line. Where its row is the last one, the text
loses the blank, and the template line fits no row any more. -/
theorem shuffled_rows_lose_a_blank :
    let content := "Name: {%X%}".toList
    let rows := ["Name: ".toList, "end".toList]
    let shuffled := ["end".toList, "Name: ".toList]
    let repository : Repository :=
      { files := MemoryFiles.empty.fileSystem, scoring := fun _ _ => .zero, mode := .whole }
    let extractor : Extractor := { repository, mode := .line, strict := false, timeLimit := none }
    (∀ row ∈ rows, '\n' ∉ row) ∧ shuffled.Perm rows ∧
    (∀ passage ∈ MatchMode.line.passages content,
      rows.countP (fun row => Text.InOrder (passage.pieces .line) row) ≤ 1) ∧
    (∃ extraction,
      (extractor.extractText .never (['\n'].intercalate rows) content none "form").outcome =
        .ok (some extraction) ∧ extraction.values.get? "X".toList = some []) ∧
    (extractor.extractText .never (['\n'].intercalate shuffled) content none "form").outcome =
      .ok none := by
  intro content rows shuffled repository extractor
  have passages : MatchMode.line.passages content = [⟨"Name: ".toList, [⟨"X".toList, []⟩]⟩] := by
    decide +kernel
  have kept : Compiled.found .line content
      (MatchMode.line.normalize (['\n'].intercalate rows)) = [("X".toList, [])] := by
    decide +kernel
  have lost : Compiled.found .line content
      (MatchMode.line.normalize (['\n'].intercalate shuffled)) = [] := by
    decide +kernel
  have answer (text : Text) :
      (extractor.extractText .never text content none "form").outcome =
        let found := Compiled.found .line content (MatchMode.line.normalize text)
        .ok (if found.isEmpty then none else some ⟨.report .empty found, "form"⟩) :=
    extractor.outcome_extractText_lenient rfl rfl text content none "form"
  refine ⟨by decide, by decide, ?_, ⟨⟨.report .empty [("X".toList, [])], "form"⟩, ?_, ?_⟩, ?_⟩
  · rw [passages]
    decide +kernel
  · rw [answer, kept]
    rfl
  · decide +kernel
  · rw [answer, lost]
    rfl

end Stencil
