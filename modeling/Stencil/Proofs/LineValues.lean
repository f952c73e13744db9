import Stencil.Proofs.Cutoffs
import Stencil.Proofs.RoundTrip

/-! Where the values of line by line extraction lie.

A gap crosses every character but the line feed, so that what is captured lies within a row of the
text. Templates are cut into lines at the other line breaks as well; in a text these are characters
like any other, and a value may run over them.
-/

set_option autoImplicit false

namespace Stencil

namespace Pattern

variable {crosses : Char → Bool} {pattern : Pattern} {text : Text} {captures : Captures}

theorem captured_of_matchHere? (crossed : AsksWithin crosses pattern)
    (matched : matchHere? crosses pattern text = some captures) :
    ∀ value, some value ∈ captures → (∀ c ∈ value, crosses c) ∧ value <:+: text := by
  induction pattern generalizing text captures with
  | nil =>
    cases matched
    simp
  | cons piece rest ih =>
    obtain ⟨first, others⟩ := List.forall_mem_cons.mp crossed
    -- A match behind a literal captures within what is left of the text.
    have behind {length : Nat} {later : Captures}
        (further : matchHere? crosses rest (text.drop length) = some later) :
        ∀ value, some value ∈ later → (∀ c ∈ value, crosses c) ∧ value <:+: text := by
      intro value member
      obtain ⟨within, inside⟩ := ih others further value member
      exact ⟨within, inside.trans (List.drop_suffix length text).isInfix⟩
    cases piece with
    | literal literal =>
      rw [matchHere?] at matched
      split at matched
      · exact behind matched
      · exact absurd matched (by simp)
    | gap =>
      obtain ⟨⟨taken, later⟩, found, rfl⟩ := Option.map_eq_some_iff.mp matched
      obtain ⟨left, rfl, crossable, here⟩ := longestGap_sound found
      intro value member
      rcases List.mem_cons.mp member with same | member
      · cases same
        exact ⟨crossable, (List.prefix_append taken left).isInfix⟩
      · obtain ⟨within, inside⟩ := ih others here value member
        exact ⟨within, inside.trans (List.suffix_append taken left).isInfix⟩
    | optional literal =>
      rw [matchHere?] at matched
      split at matched
      · rename_i later taken
        cases matched
        split at taken
        · rename_i stands
          intro value member
          rcases List.mem_cons.mp member with same | member
          · cases same
            exact ⟨first, (List.isPrefixOf_iff_prefix.mp stands).isInfix⟩
          · exact behind taken value member
        · exact absurd taken (by simp)
      · obtain ⟨later, found, rfl⟩ := Option.map_eq_some_iff.mp matched
        intro value member
        exact ih others found value (by simpa using member)

theorem captured_of_search? {mode : MatchMode} (crossed : AsksWithin mode.crosses pattern)
    (matched : pattern.search? mode text = some captures) :
    ∀ value, some value ∈ captures → (∀ c ∈ value, mode.crosses c) ∧ value <:+: text := by
  rw [search?_eq_leftmost?] at matched
  obtain ⟨start, found⟩ := exists_of_leftmost? matched
  intro value member
  obtain ⟨within, inside⟩ := captured_of_matchHere? crossed found.here value member
  exact ⟨within, inside.trans (List.drop_suffix start text).isInfix⟩

end Pattern

/-- What the searches for the lines of a template report lies within a row of the text. -/
theorem Compiled.exists_row_of_mem_reports {content text name captured : Text} {one : Searched}
    (member : one ∈ (ofTemplate .line content).searched (MatchMode.line.normalize text))
    (reported : (name, captured) ∈ one.reports) :
    ∃ row ∈ text.splitOn '\n', captured <:+: row := by
  simp only [searched, ofTemplate, List.zip_map', List.map_map, List.mem_map,
    Function.comp_apply] at member
  obtain ⟨passage, isPassage, rfl⟩ := member
  obtain ⟨⟨bound, capture⟩, isPair, paired⟩ := List.mem_filterMap.mp reported
  obtain ⟨value, rfl, same⟩ := Option.map_eq_some_iff.mp paired
  cases same
  have captures := (List.of_mem_zip isPair).2
  cases matched : Pattern.search? .line (passage.pattern .line) (MatchMode.line.normalize text) with
  | none => simp [matched] at captures
  | some found =>
    rw [matched] at captures
    obtain ⟨within, inside⟩ := Pattern.captured_of_search?
      (Passage.asksWithin_of_mem_passages isPassage) matched captured captures
    have unbroken : '\n' ∉ captured := fun letter => absurd (within _ letter) (by decide)
    exact Text.exists_row_of_isInfix unbroken (inside.trans (Text.trim_isInfix text))

/-- A value that is extracted from a text line by line, with whatever template, by whatever extractor
and with whichever searches cut off. -/
def IsLineValue (text value : Text) : Prop :=
  ∃ (extractor : Extractor) (cutoff : Cutoff) (content : Text) (mode : Option MatchMode)
      (source : String) (extraction : Extraction) (name : Text),
    mode.getD extractor.mode = .line ∧
    (extractor.extractText cutoff text content mode source).outcome = .ok (some extraction) ∧
    extraction.values.get? name = some value

theorem IsLineValue.exists_row {text value : Text} (extracted : IsLineValue text value) :
    ∃ row ∈ text.splitOn '\n', ∃ captured, captured <:+: row ∧ value = Text.clean captured := by
  obtain ⟨extractor, cutoff, content, mode, source, extraction, name, line, matched, bound⟩ :=
    extracted
  rw [Extractor.outcome_extractText, line] at matched
  split at matched
  · exact absurd matched (by simp)
  · rename_i compiled compiles
    have enough := Compiled.not_lacksGroup_of_compile compiles (MatchMode.line.normalize text)
    cases Compiled.eq_ofTemplate_of_compile compiles
    obtain ⟨result, extracts, -, values⟩ := Compiled.exists_extract cutoff source enough
    rw [extracts] at matched
    cases matched
    -- The value is the cleaned last capture of its name among the searches that came to an end.
    obtain ⟨captured, last, rfl⟩ := Option.map_eq_some_iff.mp ((values name).symm.trans bound)
    obtain ⟨one, isKept, reported⟩ := List.mem_flatMap.mp (mem_of_lastUnder last)
    obtain ⟨row, isRow, inside⟩ :=
      Compiled.exists_row_of_mem_reports (cutoff.kept_subset _ isKept) reported
    exact ⟨row, isRow, captured, inside, rfl⟩

theorem IsLineValue.mem_text {text value : Text} {c : Char} (extracted : IsLineValue text value)
    (letter : c ∈ value) : c ∈ text ∧ c ≠ '\n' := by
  obtain ⟨row, isRow, captured, inside, rfl⟩ := extracted.exists_row
  have inRow : c ∈ row := inside.subset ((Text.clean_sublist captured).subset letter)
  refine ⟨(Text.isInfix_of_mem_splitOn isRow).subset inRow, ?_⟩
  rintro rfl
  exact Text.not_mem_of_mem_splitOn isRow inRow

theorem trim_enclosed (row : Text) : Text.trim (['a'] ++ row ++ ['b']) = ['a'] ++ row ++ ['b'] := by
  apply Text.trim_eq_self
  · rintro _ ⟨⟩
    decide
  · rw [List.getLast?_append_of_ne_nil _ (by simp)]
    rintro _ ⟨⟩
    decide

theorem values?_enclosed {row : Text} (unbroken : '\n' ∉ row) :
    (Passage.ofText "a{%X%}b".toList).values? .line (['a'] ++ row ++ ['b']) = some [row] := by
  have pieces : (Passage.ofText "a{%X%}b".toList).pieces .line = [['a'], ['b']] := by
    decide +kernel
  have woven : ['a'] ++ row ++ ['b'] = [] ++ Text.weave [['a'], ['b']] [row] := rfl
  have ordered : Text.InOrder [['a'], ['b']] (['a'] ++ row ++ ['b']) :=
    @Text.inOrder_weave [['a'], ['b']] [row] rfl
  rw [← pieces] at ordered
  obtain ⟨start, starts, placed⟩ := Passage.exists_placed ordered
  have crossed : ∀ c ∈ ['a'] ++ row ++ ['b'], MatchMode.line.crosses c :=
    crosses_of_not_mem (by simp [unbroken])
  rw [Passage.values?_of_placed crossed placed]
  rw [pieces] at placed ⊢
  cases placed with
  | mk least back _ =>
    have atStart : start = 0 := Nat.le_zero.mp (least.2 ⟨[], row ++ ['b'], rfl, rfl⟩)
    rw [atStart]
    exact congrArg some (back.gaps_of_onlyInFront woven rfl (by simp)).2

theorem isLineValue_clean {row : Text} (unbroken : '\n' ∉ row) :
    IsLineValue (['a'] ++ row ++ ['b']) (Text.clean row) := by
  let content := "a{%X%}b".toList
  let repository : Repository :=
    { files := MemoryFiles.empty.fileSystem, scoring := fun _ _ => .zero, mode := .line }
  let extractor : Extractor := { repository, mode := .line, strict := false, timeLimit := none }
  have normal : MatchMode.line.normalize (['a'] ++ row ++ ['b']) = ['a'] ++ row ++ ['b'] :=
    trim_enclosed row
  have passages : MatchMode.line.passages content = [Passage.ofText content] := by decide +kernel
  have found : Compiled.found .line content (MatchMode.line.normalize (['a'] ++ row ++ ['b'])) =
      [("X".toList, row)] := by
    have names : (Passage.ofText content).names = ["X".toList] := by decide +kernel
    rw [normal, Compiled.found, passages, List.flatMap_singleton,
      Passage.found_of_values (values?_enclosed unbroken), names]
    rfl
  have answer := extractor.outcome_extractText_lenient rfl rfl (['a'] ++ row ++ ['b']) content none
    "form"
  simp only [Option.getD_none, extractor, found] at answer
  refine ⟨extractor, .never, content, none, "form", _, "X".toList, rfl, answer, ?_⟩
  rw [Bindings.get?_report, lastUnder_of_mem (by simp) (List.mem_singleton_self _)]
  rfl

theorem exists_isLineValue_of_lineBreak {c : Char} (breaks : Text.isLineBreak c = true)
    (other : c ≠ '\n') : ∃ text value, IsLineValue text value ∧ c ∈ value := by
  have plain : c ≠ '<' := by
    rintro rfl
    exact absurd breaks (by decide)
  have kept : Text.clean ['a', c, 'b'] = ['a', c, 'b'] := by
    apply Text.clean_eq_self
    · exact trim_enclosed [c]
    · rw [← Text.withoutTags_eq_self_iff]
      simp [Text.withoutTags, Text.withoutTagsFrom, plain]
  have extracted := @isLineValue_clean ['a', c, 'b'] (by simp [Ne.symm other])
  rw [kept] at extracted
  exact ⟨_, _, extracted, by simp⟩

/-- A value that is extracted line by line is what cleaning leaves of a stretch of one row of the text,
where rows end at line feeds only; and what cleaning leaves of any row is such a value. So a value is
one line as long as the text breaks its lines with line feeds, and each of the other line breaks, at
which a template would be cut, stands in the value of some text. -/
theorem line_values_are_cleaned_rows (text value : Text) :
    (IsLineValue text value →
      (∃ row ∈ text.splitOn '\n', ∃ captured, captured <:+: row ∧ value = Text.clean captured) ∧
      ((∀ c ∈ text, Text.isLineBreak c = true → c = '\n') →
        ∀ c ∈ value, Text.isLineBreak c = false)) ∧
    ((∃ source, IsLineValue source value) ↔ ∃ row, '\n' ∉ row ∧ value = Text.clean row) ∧
    ∀ c, Text.isLineBreak c = true →
      ((∃ source reading, IsLineValue source reading ∧ c ∈ reading) ↔ c ≠ '\n') := by
  refine ⟨fun extracted => ⟨extracted.exists_row, fun lineFeeds c letter => ?_⟩, ?_, ?_⟩
  · obtain ⟨inText, other⟩ := extracted.mem_text letter
    exact Bool.eq_false_iff.mpr fun breaks => other (lineFeeds c inText breaks)
  · constructor
    · rintro ⟨source, extracted⟩
      obtain ⟨row, isRow, captured, inside, rfl⟩ := extracted.exists_row
      exact ⟨captured, fun letter => Text.not_mem_of_mem_splitOn isRow (inside.subset letter), rfl⟩
    · rintro ⟨row, unbroken, rfl⟩
      exact ⟨_, isLineValue_clean unbroken⟩
  · intro c breaks
    constructor
    · rintro ⟨source, reading, extracted, letter⟩
      exact (extracted.mem_text letter).2
    · intro other
      exact exists_isLineValue_of_lineBreak breaks other

/-- A template and a form of it whose lines end with carriage returns. The template is cut into its
two lines; in the form the first value runs over the end of its line. -/
theorem line_value_runs_over_a_carriage_return :
    let content := "Name: {%Name%}\rAge: {%Age%}".toList
    let text := "Name: Alice\rAge: 30".toList
    let value := "Alice\rAge: 30".toList
    let repository : Repository :=
      { files := MemoryFiles.empty.fileSystem, scoring := fun _ _ => .zero, mode := .line }
    let extractor : Extractor := { repository, mode := .line, strict := false, timeLimit := none }
    Text.lines content = ["Name: {%Name%}".toList, "Age: {%Age%}".toList] ∧
    Text.lines text = ["Name: Alice".toList, "Age: 30".toList] ∧
    Text.isLineBreak '\r' = true ∧ '\r' ∈ value ∧
    ∃ extraction,
      (extractor.extractText .never text content none "form").outcome = .ok (some extraction) ∧
      extraction.values.pairs = [("Name".toList, value), ("Age".toList, "30".toList)] := by
  intro content text value repository extractor
  have found : Compiled.found .line content (MatchMode.line.normalize text) =
      [("Name".toList, value), ("Age".toList, "30".toList)] := by decide +kernel
  have answer := extractor.outcome_extractText_lenient rfl rfl text content none "form"
  simp only [Option.getD_none, extractor, found] at answer
  exact ⟨by decide +kernel, by decide +kernel, by decide, by decide +kernel, _, answer,
    by decide +kernel⟩

end Stencil
