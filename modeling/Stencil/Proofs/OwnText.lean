import Stencil.Proofs.Filling

/-! Templates and their own text.

Between the literals of a template stand its placeholders as they are written. They begin and end
with a visible character, so that levelling the template as a text levels each of its literals by
itself: nothing is lost at their edges. What a template is searched for by therefore stands in its own
text, with the written placeholders as values.
-/

set_option autoImplicit false

namespace Stencil

open Text

namespace Placeholder

theorem Spelling.trim_text (spelling : Spelling) : trim spelling.text = spelling.text := by
  apply trim_eq_self
  · intro c first
    cases first
    decide
  · intro c last
    rw [Spelling.text, List.getLast?_append_of_ne_nil _ (by simp)] at last
    cases last
    decide

end Placeholder

namespace Text

theorem isInfix_of_mem_lines {text line : Text} (member : line ∈ text.lines) : line <:+: text := by
  rw [← map_fst_brokenLines] at member
  obtain ⟨⟨line, ending⟩, isLine, rfl⟩ := List.mem_map.mp member
  obtain ⟨above, below, split⟩ := List.append_of_mem isLine
  have whole := flatMap_brokenLines text
  rw [split, List.flatMap_append, List.flatMap_cons] at whole
  rw [← whole, List.append_assoc line]
  exact ⟨_, _, List.append_assoc _ _ _⟩

end Text

theorem MatchMode.isInfix_of_mem_units {mode : MatchMode} {content unit : Text}
    (member : unit ∈ mode.units content) : unit.trim = unit ∧ unit <:+: content := by
  cases mode with
  | whole =>
    cases List.mem_singleton.mp member
    exact ⟨trim_trim content, trim_isInfix content⟩
  | line =>
    obtain ⟨line, isLine, rfl⟩ := List.mem_map.mp (List.mem_filter.mp member).1
    exact ⟨trim_trim line, (trim_isInfix line).trans (isInfix_of_mem_lines isLine)⟩

theorem Passage.inOrder_pieces_self (mode : MatchMode) {text : Text} (trimmed : text.trim = text) :
    InOrder ((ofText text).pieces mode) (mode.normalize text) := by
  obtain ⟨spellings, named, woven⟩ := exists_spellings text
  have count : (spellings.map Placeholder.Spelling.text).length = (ofText text).slots.length := by
    rw [List.length_map, ← length_names, ← named, List.length_map]
  cases mode with
  | whole =>
    conv => rhs; rw [← woven]
    apply inOrder_pieces_weave trimmed count
    · rw [List.forall_mem_map]
      exact fun spelling _ => spelling.trim_text
    · -- No placeholder is written without a letter.
      intro index empty
      obtain ⟨spelling, -, nothing⟩ := List.mem_map.mp (List.mem_of_getElem? empty)
      exact absurd nothing spelling.text_ne_nil
  | line =>
    have same : (ofText text).pieces .line = (ofText text).literals := List.map_id _
    rw [same, MatchMode.normalize, trimmed]
    conv => rhs; rw [← woven]
    apply inOrder_weave
    rw [literals, List.length_cons, List.length_map, count]

/-- Every passage of a template is found in the text of the template. -/
theorem Passage.isSome_values?_self {mode : MatchMode} {content : Text} {passage : Passage}
    (member : passage ∈ mode.passages content) :
    (passage.values? mode (mode.normalize content)).isSome := by
  obtain ⟨unit, isUnit, rfl⟩ := List.mem_map.mp member
  obtain ⟨trimmed, before, behind, whole⟩ := MatchMode.isInfix_of_mem_units isUnit
  have inside : mode.normalize unit <:+: mode.normalize content := by
    rw [← whole]
    exact normalize_isInfix mode before unit behind
  apply isSome_values?_of_isInfix member inside
  have crossed : ∀ c ∈ mode.normalize unit, mode.crosses c := by
    cases mode with
    | whole => exact fun _ _ => rfl
    | line =>
      obtain ⟨line, isLine, rfl⟩ := List.mem_map.mp (List.mem_filter.mp isUnit).1
      apply crosses_of_not_mem
      intro letter
      have inLine := (trim_sublist line).subset ((trim_sublist _).subset letter)
      exact absurd (not_lineBreak_of_mem_lines isLine inLine) (by decide)
  rw [isSome_values?_iff crossed]
  exact inOrder_pieces_self mode trimmed

/-- A template fits its own text, whatever is malformed in it. A lenient extractor without a limit
finds each of its patterns there, so that it answers nothing only where the template has no
placeholder, and else a value for each placeholder, in template order. -/
theorem template_fits_itself (extractor : Extractor) (mode : Option MatchMode) (content : Text)
    (source : String) (lenient : extractor.strict = false)
    (unlimited : extractor.timeLimit = none) :
    let outcome := (extractor.extractText extractor.timeLimit.cutoff content content mode
      source).outcome
    ∃ compiled,
      (Compiled.compile (mode.getD extractor.mode) false source content).outcome = .ok compiled ∧
      (∀ pattern ∈ compiled.patterns, (Pattern.search? compiled.mode pattern
        ((mode.getD extractor.mode).normalize content)).isSome) ∧
      (outcome = .ok none ↔ compiled.placeholders = []) ∧
      (compiled.placeholders ≠ [] → ∃ extraction, outcome = .ok (some extraction) ∧
        extraction.source = source ∧ extraction.values.names = compiled.placeholders) := by
  intro outcome
  have answer := extractor.outcome_extractText_lenient lenient unlimited content content mode source
  have all (passage : Passage) (member : passage ∈ (mode.getD extractor.mode).passages content) :=
    Passage.isSome_values?_self member
  have names := Compiled.map_fst_found_of_all fun passage member _ => all passage member
  have placeholders : (Compiled.ofTemplate (mode.getD extractor.mode) content).placeholders =
      Compiled.distinct ((Compiled.found (mode.getD extractor.mode) content
        ((mode.getD extractor.mode).normalize content)).map Prod.fst) := by
    rw [names, Compiled.placeholders]
  refine ⟨_, Compiled.outcome_compile_lenient _ _ _, ?_, ?_⟩
  · intro pattern isPattern
    obtain ⟨passage, member, rfl⟩ := List.mem_map.mp isPattern
    exact Passage.isSome_values?.mp (all passage member)
  rw [placeholders, show outcome = _ from answer]
  dsimp only
  cases found : Compiled.found (mode.getD extractor.mode) content
      ((mode.getD extractor.mode).normalize content) with
  | nil => simp [Compiled.distinct]
  | cons pair rest =>
    refine ⟨by simp [Compiled.distinct], fun _ => ⟨_, rfl, rfl, ?_⟩⟩
    rw [Bindings.names_report_empty]

/-- Blanks are levelled inside of placeholders as well, and stray delimiters are literal text. -/
theorem template_fits_itself_with_strays :
    let content := " Id: \t{%  Id %}\r\n\n{%%}  {% Net  Sum%}\u2028%\x7d [{%Id%}".toList
    let repository : Repository :=
      { files := MemoryFiles.empty.fileSystem, scoring := fun _ _ => .zero, mode := .line }
    let extractor : Extractor := { repository, mode := .whole, strict := false, timeLimit := none }
    ∃ extraction,
      (extractor.extractText .never content content none "form").outcome = .ok (some extraction) ∧
      extraction.values.names = ["Id".toList, "Net  Sum".toList] := by
  intro content repository extractor
  have placeholders : (Compiled.ofTemplate .whole content).placeholders =
      ["Id".toList, "Net  Sum".toList] := by decide +kernel
  obtain ⟨compiled, compiles, -, -, fits⟩ :=
    template_fits_itself extractor none content "form" rfl rfl
  cases Compiled.eq_ofTemplate_of_compile compiles
  obtain ⟨extraction, matched, -, names⟩ := fits (by
    rw [show Option.none.getD extractor.mode = .whole from rfl, placeholders]
    simp)
  exact ⟨extraction, matched, names.trans placeholders⟩

end Stencil
