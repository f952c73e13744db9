import Stencil.Document.Loader
import Stencil.Proofs.Respacing
import Stencil.Proofs.RowOrder

/-! Documents in pages.

Every page break leaves an empty row in the text of a document. Empty rows decide nothing: a template
line that fits an empty row is made of gaps, so that it fits the first row of the text, and that row is
never empty in a trimmed text. Nor does an empty row hold a word.
-/

set_option autoImplicit false

namespace Stencil

/-! ## Empty rows -/

namespace Text

/-- The rows that are not empty. Rows of blanks are among them. -/
def filledRows (rows : List Text) : List Text :=
  rows.filter (!·.isEmpty)

/-- What is left of rows when their text is trimmed at its start. -/
def trimRowsStart : List Text → List Text
  | [] => []
  | row :: below => if row.trimStart = [] then trimRowsStart below else row.trimStart :: below

/-- What is left of rows when their text is trimmed at its end. -/
def trimRowsEnd : List Text → List Text
  | [] => []
  | row :: below =>
    if trimRowsEnd below = [] then if row.trimEnd = [] then [] else [row.trimEnd]
    else row :: trimRowsEnd below

theorem trimStart_eq_intercalate (rows : List Text) :
    trimStart (['\n'].intercalate rows) = ['\n'].intercalate (trimRowsStart rows) := by
  induction rows with
  | nil => rfl
  | cons row below ih =>
    cases below with
    | nil => by_cases blank : row.trimStart = [] <;> simp [trimRowsStart, blank]
    | cons next others =>
      rw [List.intercalate_cons_cons, List.append_assoc, trimStart_append, trimRowsStart]
      by_cases blank : row.trimStart = []
      · rw [if_pos blank, if_pos blank, trimStart_append, if_pos (by decide), ih]
      · rw [if_neg blank, if_neg blank, List.intercalate_cons_cons, List.append_assoc]

theorem intercalate_ne_nil {rows : List Text} {row : Text} (member : row ∈ rows)
    (filled : row ≠ []) : ['\n'].intercalate rows ≠ [] := by
  obtain ⟨c, letter⟩ := List.exists_mem_of_ne_nil row filled
  exact List.ne_nil_of_mem (mem_intercalate_of_mem member letter)

theorem exists_filled_of_trimRowsEnd {rows : List Text} (some_left : trimRowsEnd rows ≠ []) :
    ∃ row ∈ trimRowsEnd rows, row ≠ [] := by
  induction rows with
  | nil => exact absurd rfl some_left
  | cons row below ih =>
    rw [trimRowsEnd] at some_left ⊢
    by_cases lost : trimRowsEnd below = []
    · rw [if_pos lost] at some_left ⊢
      by_cases blank : row.trimEnd = []
      · exact absurd (if_pos blank) some_left
      · exact ⟨row.trimEnd, by simp [blank], blank⟩
    · rw [if_neg lost]
      obtain ⟨other, member, filled⟩ := ih lost
      exact ⟨other, List.mem_cons_of_mem _ member, filled⟩

theorem trimEnd_eq_intercalate (rows : List Text) :
    trimEnd (['\n'].intercalate rows) = ['\n'].intercalate (trimRowsEnd rows) := by
  induction rows with
  | nil => rfl
  | cons row below ih =>
    rw [trimRowsEnd]
    cases below with
    | nil => by_cases blank : row.trimEnd = [] <;> simp [trimRowsEnd, blank]
    | cons next others =>
      rw [List.intercalate_cons_cons, List.append_assoc, trimEnd_append, trimEnd_append, ih]
      by_cases lost : trimRowsEnd (next :: others) = []
      · rw [lost, List.intercalate_nil, if_pos rfl, if_pos (by decide), if_pos rfl]
        by_cases blank : row.trimEnd = [] <;> simp [blank]
      · obtain ⟨other, member, filled⟩ := exists_filled_of_trimRowsEnd lost
        rw [if_neg (intercalate_ne_nil member filled), if_neg (by simp), if_neg lost,
          List.intercalate_cons_of_ne_nil lost, List.append_assoc]

def trimRows (rows : List Text) : List Text :=
  trimRowsEnd (trimRowsStart rows)

theorem trim_eq_intercalate (rows : List Text) :
    trim (['\n'].intercalate rows) = ['\n'].intercalate (trimRows rows) := by
  rw [trim, trimStart_eq_intercalate, trimEnd_eq_intercalate, trimRows]

theorem exists_of_mem_trimRowsStart {rows : List Text} {row : Text}
    (member : row ∈ trimRowsStart rows) : ∃ other ∈ rows, row ⊆ other := by
  induction rows with
  | nil => exact absurd member List.not_mem_nil
  | cons first below ih =>
    rw [trimRowsStart] at member
    split at member
    · obtain ⟨other, isBelow, inside⟩ := ih member
      exact ⟨other, List.mem_cons_of_mem _ isBelow, inside⟩
    · rcases List.mem_cons.mp member with rfl | isBelow
      · exact ⟨first, List.mem_cons_self, (trimStart_suffix first).subset⟩
      · exact ⟨row, List.mem_cons_of_mem _ isBelow, List.Subset.refl row⟩

theorem exists_of_mem_trimRowsEnd {rows : List Text} {row : Text}
    (member : row ∈ trimRowsEnd rows) : ∃ other ∈ rows, row ⊆ other := by
  induction rows with
  | nil => exact absurd member List.not_mem_nil
  | cons first below ih =>
    rw [trimRowsEnd] at member
    split at member
    · split at member
      · exact absurd member List.not_mem_nil
      · cases List.mem_singleton.mp member
        exact ⟨first, List.mem_cons_self, (trimEnd_prefix_self first).subset⟩
    · rcases List.mem_cons.mp member with rfl | isBelow
      · exact ⟨row, List.mem_cons_self, List.Subset.refl row⟩
      · obtain ⟨other, isOther, inside⟩ := ih isBelow
        exact ⟨other, List.mem_cons_of_mem _ isOther, inside⟩

theorem exists_of_mem_trimRows {rows : List Text} {row : Text} (member : row ∈ trimRows rows) :
    ∃ other ∈ rows, row ⊆ other := by
  obtain ⟨between, isBetween, inside⟩ := exists_of_mem_trimRowsEnd member
  obtain ⟨other, isRow, inside'⟩ := exists_of_mem_trimRowsStart isBetween
  exact ⟨other, isRow, List.Subset.trans inside inside'⟩

theorem filledRows_cons_empty (rows : List Text) : filledRows ([] :: rows) = filledRows rows := rfl

theorem filledRows_cons {row : Text} (filled : row ≠ []) (rows : List Text) :
    filledRows (row :: rows) = row :: filledRows rows :=
  List.filter_cons_of_pos (by simpa using filled)

theorem trimRowsStart_filledRows (rows : List Text) :
    trimRowsStart (filledRows rows) = filledRows (trimRowsStart rows) := by
  induction rows with
  | nil => rfl
  | cons row below ih =>
    by_cases empty : row = []
    · subst empty
      exact ih
    · rw [filledRows_cons empty, trimRowsStart, trimRowsStart]
      by_cases blank : row.trimStart = []
      · rw [if_pos blank, if_pos blank, ih]
      · rw [if_neg blank, if_neg blank, filledRows_cons blank]

theorem filledRows_eq_nil_iff {rows : List Text} : filledRows rows = [] ↔ ∀ row ∈ rows, row = [] := by
  simp [filledRows, List.filter_eq_nil_iff]

theorem trimRowsEnd_filledRows (rows : List Text) :
    trimRowsEnd (filledRows rows) = filledRows (trimRowsEnd rows) := by
  induction rows with
  | nil => rfl
  | cons row below ih =>
    -- As the last row that is left is not empty, rows are left with the empty ones and without them.
    have left : filledRows (trimRowsEnd below) = [] ↔ trimRowsEnd below = [] := by
      refine ⟨fun empty => ?_, fun lost => by rw [lost]; rfl⟩
      by_contra some_left
      obtain ⟨other, member, filled⟩ := exists_filled_of_trimRowsEnd some_left
      exact filled (filledRows_eq_nil_iff.mp empty other member)
    by_cases empty : row = []
    · subst empty
      rw [filledRows_cons_empty, ih, trimRowsEnd]
      by_cases lost : trimRowsEnd below = []
      · rw [if_pos lost, lost]
        rfl
      · rw [if_neg lost, filledRows_cons_empty]
    · rw [filledRows_cons empty, trimRowsEnd, trimRowsEnd, ih]
      by_cases lost : trimRowsEnd below = []
      · rw [if_pos lost, if_pos (left.mpr lost)]
        by_cases blank : row.trimEnd = []
        · rw [if_pos blank]
          rfl
        · rw [if_neg blank, filledRows_cons blank]
          rfl
      · rw [if_neg lost, if_neg (mt left.mp lost), filledRows_cons empty]

theorem trimRows_filledRows (rows : List Text) :
    trimRows (filledRows rows) = filledRows (trimRows rows) := by
  rw [trimRows, trimRowsStart_filledRows, trimRowsEnd_filledRows, trimRows]

theorem words_intercalate (rows : List Text) :
    words (['\n'].intercalate rows) = rows.flatMap words := by
  induction rows with
  | nil => rfl
  | cons row below ih =>
    cases below with
    | nil => simp
    | cons next others =>
      rw [List.intercalate_cons_cons, List.append_assoc, List.singleton_append,
        words_append_blank (by decide), ih]
      rfl

theorem words_intercalate_filledRows (rows : List Text) :
    words (['\n'].intercalate (filledRows rows)) = words (['\n'].intercalate rows) := by
  rw [words_intercalate, words_intercalate]
  induction rows with
  | nil => rfl
  | cons row below ih =>
    by_cases empty : row = []
    · subst empty
      exact ih
    · rw [filledRows_cons empty, List.flatMap_cons, List.flatMap_cons, ih]

end Text

/-! ## Searching between empty rows -/

theorem findSome?_filter {α β : Type} {find : α → Option β} {p : α → Bool} {members : List α}
    (passed : ∀ a ∈ members, p a = false → find a = none) :
    (members.filter p).findSome? find = members.findSome? find := by
  induction members with
  | nil => rfl
  | cons first rest ih =>
    obtain ⟨here, later⟩ := List.forall_mem_cons.mp passed
    cases kept : p first with
    | true => rw [List.filter_cons_of_pos kept, List.findSome?_cons, List.findSome?_cons, ih later]
    | false =>
      rw [List.filter_cons_of_neg (by simp [kept]), List.findSome?_cons, here kept, ih later]

namespace Passage

variable {content : Text} {passage : Passage}

theorem values?_filledRows (member : passage ∈ MatchMode.line.passages content) {rows : List Text}
    (unbroken : ∀ row ∈ rows, '\n' ∉ row)
    (begins : ∀ c ∈ (['\n'].intercalate rows).head?, Text.isBlank c = false) :
    passage.values? .line (['\n'].intercalate (Text.filledRows rows)) =
      passage.values? .line (['\n'].intercalate rows) := by
  cases rows with
  | nil => rfl
  | cons first below =>
    by_cases empty : first = []
    · subst empty
      -- A line feed would follow, with which no trimmed text begins.
      cases below with
      | nil => rfl
      | cons next others => exact absurd (begins '\n' (by simp)) (by decide)
    have kept := Text.filledRows_cons empty below
    have unbroken' : ∀ row ∈ Text.filledRows (first :: below), '\n' ∉ row := fun row isKept =>
      unbroken row (List.mem_filter.mp isKept).1
    rw [values?_intercalate member (by simp [kept]) unbroken',
      values?_intercalate member (by simp) unbroken, kept, List.findSome?_cons, List.findSome?_cons]
    cases here : passage.values? .line first with
    | some values => rfl
    | none =>
      refine findSome?_filter fun row _ isEmpty => ?_
      have nothing : row = [] := by simpa using isEmpty
      -- What fits an empty row fits every row.
      refine values?_of_not_inOrder fun fits => ?_
      rw [nothing] at fits
      have inside := crosses_of_not_mem (List.forall_mem_cons.mp unbroken).1
      have found := (isSome_values?_iff inside).mpr (fits.append_right first)
      rw [here] at found
      exact absurd found (by simp)

theorem values?_trim_filledRows (member : passage ∈ MatchMode.line.passages content)
    {rows : List Text} (unbroken : ∀ row ∈ rows, '\n' ∉ row) :
    passage.values? .line (Text.trim (['\n'].intercalate (Text.filledRows rows))) =
      passage.values? .line (Text.trim (['\n'].intercalate rows)) := by
  have unbroken' : ∀ row ∈ Text.trimRows rows, '\n' ∉ row := by
    intro row isLeft broken
    obtain ⟨other, isRow, inside⟩ := Text.exists_of_mem_trimRows isLeft
    exact unbroken other isRow (inside broken)
  have trimmed := Text.trim_eq_intercalate rows
  have begins := fun c => @Text.not_blank_of_head?_trim (['\n'].intercalate rows) c
  rw [trimmed] at begins ⊢
  rw [Text.trim_eq_intercalate, Text.trimRows_filledRows, values?_filledRows member unbroken' begins]

end Passage

/-- Texts that differ in empty rows only yield the same values, in both modes. -/
theorem Compiled.found_normalize_of_filledRows (mode : MatchMode) (content : Text)
    {rows rows' : List Text} (unbroken : ∀ row ∈ rows, '\n' ∉ row)
    (unbroken' : ∀ row ∈ rows', '\n' ∉ row) (same : Text.filledRows rows' = Text.filledRows rows) :
    found mode content (mode.normalize (['\n'].intercalate rows')) =
      found mode content (mode.normalize (['\n'].intercalate rows)) := by
  cases mode with
  | whole =>
    have words : Text.words (['\n'].intercalate rows') = Text.words (['\n'].intercalate rows) := by
      rw [← Text.words_intercalate_filledRows, same, Text.words_intercalate_filledRows]
    rw [Text.normalize_whole, Text.normalize_whole, words]
  | line =>
    unfold found
    apply List.flatMap_congr
    intro passage member
    have searched : passage.values? .line (Text.trim (['\n'].intercalate rows')) =
        passage.values? .line (Text.trim (['\n'].intercalate rows)) := by
      rw [← Passage.values?_trim_filledRows member unbroken', same,
        Passage.values?_trim_filledRows member unbroken]
    simp only [Passage.found, MatchMode.normalize, searched]

/-! ## Pages -/

namespace Pages

/-- The rows of a document: each page ends with an empty one. -/
def rows (pages : List (List Text)) : List Text :=
  pages.flatMap (· ++ [[]])

theorem pageText_append_intercalate (lines : List Text) {rows : List Text} (nonempty : rows ≠ []) :
    pageText lines ++ ['\n'].intercalate rows = ['\n'].intercalate (lines ++ rows) := by
  induction lines with
  | nil => rfl
  | cons line lines ih =>
    rw [List.cons_append, List.intercalate_cons_of_ne_nil (by simp [nonempty]), ← ih]
    simp [pageText]

theorem text_eq_intercalate (pages : List (List Text)) :
    text pages = ['\n'].intercalate (rows pages) := by
  induction pages with
  | nil => rfl
  | cons page later ih =>
    have ends : pageText page = ['\n'].intercalate (page ++ [[]]) := by
      rw [← pageText_append_intercalate page (by simp), List.intercalate_singleton, List.append_nil]
    cases later with
    | nil => simpa [text, rows] using ends
    | cons next others =>
      have some_left : rows (next :: others) ≠ [] := by simp [rows]
      show ['\n'].intercalate (pageText page :: pageText next :: others.map pageText) = _
      have joined : ['\n'].intercalate (pageText next :: others.map pageText) =
          ['\n'].intercalate (rows (next :: others)) := ih
      rw [List.intercalate_cons_cons, joined, List.append_assoc, List.singleton_append]
      show _ = ['\n'].intercalate (page ++ [[]] ++ rows (next :: others))
      rw [List.append_assoc, ← pageText_append_intercalate page (by simp), List.singleton_append,
        List.intercalate_cons_of_ne_nil some_left]
      rfl

theorem filledRows_rows (pages : List (List Text)) :
    Text.filledRows (rows pages) = Text.filledRows pages.flatten := by
  induction pages with
  | nil => rfl
  | cons page later ih =>
    unfold Text.filledRows rows at ih ⊢
    simp only [List.flatMap_cons, List.flatten_cons, List.filter_append, ih]
    simp

theorem not_mem_of_mem_rows {pages : List (List Text)} {c : Char}
    (unbroken : ∀ line ∈ pages.flatten, c ∉ line) : ∀ row ∈ rows pages, c ∉ row := by
  intro row member
  obtain ⟨page, isPage, member⟩ := List.mem_flatMap.mp member
  rcases List.mem_append.mp member with isLine | isEnd
  · exact unbroken row (List.mem_flatten.mpr ⟨page, isPage, isLine⟩)
  · cases List.mem_singleton.mp isEnd
    exact List.not_mem_nil

end Pages

/-- Page breaks decide nothing. However lines are distributed over the pages of a document, and
whichever pages are empty, the text of the document yields the same values in either mode, and the
extractor reports the same. -/
theorem page_breaks_decide_nothing (extractor : Extractor) (mode : Option MatchMode)
    (content : Text) (source encoding : String) (disk : Disk) (path path' : Path)
    (pages pages' : List (List Text)) (unlimited : extractor.timeLimit = none)
    (unbroken : ∀ line ∈ pages.flatten, '\n' ∉ line) (same : pages'.flatten = pages.flatten)
    (holds : disk.content path = .ok (.pages pages))
    (holds' : disk.content path' = .ok (.pages pages')) :
    disk.loadAs encoding .pages path = .ok (Pages.text pages) ∧
      disk.loadAs encoding .pages path' = .ok (Pages.text pages') ∧
      extractor.extractText extractor.timeLimit.cutoff (Pages.text pages') content mode source =
        extractor.extractText extractor.timeLimit.cutoff (Pages.text pages) content mode source := by
  refine ⟨by rw [Disk.loadAs, holds], by rw [Disk.loadAs, holds'], ?_⟩
  have never : extractor.timeLimit.cutoff = .never := by
    rw [unlimited]
    rfl
  rw [never]
  apply extractor.extractText_congr .never content mode source
  have found := Compiled.found_normalize_of_filledRows (mode.getD extractor.mode) content
    (Pages.not_mem_of_mem_rows unbroken) (Pages.not_mem_of_mem_rows (same ▸ unbroken))
    (by rw [Pages.filledRows_rows, Pages.filledRows_rows, same])
  rw [← Pages.text_eq_intercalate, ← Pages.text_eq_intercalate] at found
  rw [Compiled.extract_ofTemplate, Compiled.extract_ofTemplate, found]

/-- A break in front of everything and one within, against one page. One template line fits empty rows,
another a row of blanks. -/
theorem page_breaks_decide_nothing_between_rows :
    let pages := [["No: 7".toList, "  ".toList, [], "end".toList]]
    let pages' := [[], ["No: 7".toList], [], ["  ".toList, []], ["end".toList], []]
    let content := "{%First%}\nNo: {%No%}\n{%A%}  {%B%}".toList
    let disk : Disk := ⟨[(["a.pdf"], .file (.pages pages)), (["b.pdf"], .file (.pages pages'))]⟩
    let repository : Repository :=
      { files := MemoryFiles.empty.fileSystem, scoring := fun _ _ => .zero, mode := .whole }
    let extractor : Extractor := { repository, mode := .line, strict := true, timeLimit := none }
    disk.loadAs "utf-8" .pages ⟨"", ["a.pdf"]⟩ = .ok (Pages.text pages) ∧
      disk.loadAs "utf-8" .pages ⟨"", ["b.pdf"]⟩ = .ok (Pages.text pages') ∧
      extractor.extractText .never (Pages.text pages') content none "form" =
        extractor.extractText .never (Pages.text pages) content none "form" := by
  intro pages pages' content disk repository extractor
  exact page_breaks_decide_nothing extractor none content "form" "utf-8" disk _ _ pages pages' rfl
    (by decide) (by decide) rfl rfl

end Stencil
