import Stencil.Proofs.RowOrder
import Stencil.Proofs.TemplateLines
import Stencil.Proofs.Weaving

/-! Forms that are filled in, with blank fields as well.

A template is filled in stretch by stretch: as a whole, or line by line with the breaks of the lines
left in place. The filled form fits its template as long as no blank of the template is lost where
nothing is filled in. Blanks are lost next to each other in whole mode, and at the two ends of the
text in both modes.
-/

set_option autoImplicit false

namespace Stencil

open Text

/-! ## Lines with their breaks -/

namespace Text

/-- The lines of a text, each with the break that ends it. -/
def brokenLines : Text → List (Text × Text)
  | [] => []
  | '\r' :: '\n' :: rest => ([], ['\r', '\n']) :: brokenLines rest
  | c :: rest =>
    if isLineBreak c then ([], [c]) :: brokenLines rest
    else
      match brokenLines rest with
      | [] => [([c], [])]
      | (line, ending) :: later => (c :: line, ending) :: later

theorem map_fst_brokenLines (text : Text) : text.brokenLines.map Prod.fst = text.lines := by
  induction text using brokenLines.induct with
  | case1 => rfl
  | case2 rest ih => rw [brokenLines, lines, List.map_cons, ih]
  | case3 c rest notPair ends ih =>
    rw [lines.eq_3 _ _ notPair, brokenLines.eq_3 _ _ notPair, if_pos ends, if_pos ends,
      List.map_cons, ih]
  | case4 c rest notPair inside empty ih =>
    rw [lines.eq_3 _ _ notPair, brokenLines.eq_3 _ _ notPair, if_neg inside, if_neg inside, ← ih,
      empty]
    rfl
  | case5 c rest notPair inside line ending later nonempty ih =>
    rw [lines.eq_3 _ _ notPair, brokenLines.eq_3 _ _ notPair, if_neg inside, if_neg inside, ← ih,
      nonempty]
    rfl

theorem flatMap_brokenLines (text : Text) :
    text.brokenLines.flatMap (fun (line, ending) => line ++ ending) = text := by
  induction text using brokenLines.induct with
  | case1 => rfl
  | case2 rest ih =>
    rw [brokenLines, List.flatMap_cons, ih]
    rfl
  | case3 c rest notPair ends ih =>
    rw [brokenLines.eq_3 _ _ notPair, if_pos ends, List.flatMap_cons, ih]
    rfl
  | case4 c rest notPair inside empty ih =>
    rw [empty] at ih
    rw [brokenLines.eq_3 _ _ notPair, if_neg inside, empty, ← ih]
    rfl
  | case5 c rest notPair inside line ending later nonempty ih =>
    rw [nonempty] at ih
    rw [brokenLines.eq_3 _ _ notPair, if_neg inside, nonempty, ← ih]
    rfl

theorem mem_weave {literals values : List Text} {c : Char} (letter : c ∈ weave literals values) :
    (∃ literal ∈ literals, c ∈ literal) ∨ ∃ value ∈ values, c ∈ value := by
  induction literals generalizing values with
  | nil => simp [weave] at letter
  | cons lead later ih =>
    cases values with
    | nil => exact .inl (by simpa [weave] using letter)
    | cons value values =>
      rw [weave, List.mem_append, List.mem_append] at letter
      rcases letter with (inLead | inValue) | behind
      · exact .inl ⟨lead, List.mem_cons_self, inLead⟩
      · exact .inr ⟨value, List.mem_cons_self, inValue⟩
      · rcases ih behind with ⟨literal, member, inLiteral⟩ | ⟨other, member, inOther⟩
        · exact .inl ⟨literal, List.mem_cons_of_mem _ member, inLiteral⟩
        · exact .inr ⟨other, List.mem_cons_of_mem _ member, inOther⟩

theorem eq_space_of_mem_collapseAfter {text : Text} {followsBlank : Bool} {c : Char}
    (letter : c ∈ collapseAfter followsBlank text) (blank : isBlank c = true) : c = ' ' := by
  induction text generalizing followsBlank with
  | nil => simp [collapseAfter] at letter
  | cons d rest ih =>
    rw [collapseAfter] at letter
    split at letter
    · cases followsBlank with
      | true => exact ih letter
      | false =>
        rcases List.mem_cons.mp letter with rfl | letter
        · rfl
        · exact ih letter
    · rename_i visible
      rcases List.mem_cons.mp letter with rfl | letter
      · exact absurd blank visible
      · exact ih letter

theorem not_lineFeed_of_levelled {value : Text}
    (levelled : MatchMode.whole.normalize value = value) : '\n' ∉ value := by
  intro letter
  rw [← collapse_of_levelled levelled] at letter
  exact absurd (eq_space_of_mem_collapseAfter letter (by decide)) (by decide)

end Text

theorem Passage.exists_spellings (text : Text) :
    ∃ spellings : List Placeholder.Spelling,
      spellings.map Placeholder.Spelling.name = (ofText text).names ∧
      weave (ofText text).literals (spellings.map Placeholder.Spelling.text) = text := by
  induction text using ofText.induct with
  | case1 => exact ⟨[], by simp [ofText_nil, names], by simp [ofText_nil, literals, weave]⟩
  | case2 first rest name after found ih =>
    obtain ⟨spellings, named, woven⟩ := ih
    obtain ⟨spelling, rfl, written⟩ := Placeholder.exists_spelling_of_read? found
    rw [ofText_placeholder found]
    refine ⟨spelling :: spellings, congrArg (spelling.name :: ·) named, ?_⟩
    rw [written]
    exact congrArg (spelling.text ++ ·) woven
  | case3 first rest missing ih =>
    obtain ⟨spellings, named, woven⟩ := ih
    rw [ofText_letter missing]
    refine ⟨spellings, named, ?_⟩
    exact (weave_append_lead [first] _ _ _).trans (congrArg (first :: ·) woven)

/-! ## Filling in -/

/-- The stretches of a template that are filled in one by one, each with what stands behind it. -/
def MatchMode.stretches : MatchMode → Text → List (Text × Text)
  | whole, content => [(content, [])]
  | line, content => content.brokenLines

/-- A stretch of a template, what stands behind it, and values for its placeholders in order. -/
structure Entry where
  stretch : Text
  ending : Text
  values : List Text
  count : values.length = (Passage.ofText stretch).slots.length

namespace Entry

/-- The stretch with each placeholder replaced by its value. -/
def text (entry : Entry) : Text :=
  weave (Passage.ofText entry.stretch).literals entry.values ++ entry.ending

/-- What the stretch is searched for by. -/
def passage (entry : Entry) : Passage :=
  Passage.ofText entry.stretch.trim

/-- The filled stretch without the blanks that the template has around it. -/
def core (entry : Entry) : Text :=
  weave entry.passage.literals entry.values

theorem length_values (entry : Entry) : entry.values.length = entry.passage.slots.length := by
  rw [entry.count, ← Passage.length_names, ← (Passage.weave_trim entry.stretch).1,
    Passage.length_names]
  rfl

theorem exists_text_eq (entry : Entry) :
    ∃ before behind, (∀ c ∈ before, isBlank c = true) ∧ (∀ c ∈ behind, isBlank c = true) ∧
      entry.text = before ++ entry.core ++ (behind ++ entry.ending) := by
  obtain ⟨-, before, behind, blank, blank', woven⟩ := Passage.weave_trim entry.stretch
  refine ⟨before, behind, blank, blank', ?_⟩
  rw [text, woven entry.values entry.count]
  simp only [core, passage, List.append_assoc]

end Entry

/-- A template with values for all its placeholders. -/
structure Filling (mode : MatchMode) (content : Text) where
  entries : List Entry
  covers : entries.map (fun entry => (entry.stretch, entry.ending)) = mode.stretches content

namespace Filling

variable {mode : MatchMode} {content : Text}

def text (filling : Filling mode content) : Text :=
  filling.entries.flatMap Entry.text

/-- No blank of the template is lost where nothing is filled in. In whole mode a visible character
stands right beside every empty value. In line mode a filled line that begins with a blank has a
visible character somewhere above it, and one that ends with a blank has one somewhere below. -/
def KeepsBlanks (filling : Filling mode content) : Prop :=
  match mode with
  | .whole =>
    ∀ entry ∈ filling.entries, ∀ index : Nat, entry.values[index]? = some [] →
      let (before, behind) := around entry.passage.literals entry.values index
      Flanked before behind
  | .line =>
    ∀ above entry below, filling.entries = above ++ entry :: below → entry.passage.slots ≠ [] →
      ((∃ c ∈ above.flatMap Entry.text, isBlank c = false) ∨
        ∀ c ∈ entry.core.head?, isBlank c = false) ∧
      ((∃ c ∈ below.flatMap Entry.text, isBlank c = false) ∨
        ∀ c ∈ entry.core.getLast?, isBlank c = false)

/-- What a template is searched for by is what one of its stretches is searched for by. -/
theorem exists_entry (filling : Filling mode content) {passage : Passage}
    (member : passage ∈ mode.passages content) :
    ∃ entry ∈ filling.entries, entry.passage = passage := by
  obtain ⟨unit, isUnit, rfl⟩ := List.mem_map.mp member
  have stretched : ∃ stretch ∈ (mode.stretches content).map Prod.fst, stretch.trim = unit := by
    cases mode with
    | whole => exact ⟨content, List.mem_singleton_self _, (List.mem_singleton.mp isUnit).symm⟩
    | line =>
      obtain ⟨line, isLine, rfl⟩ := List.mem_map.mp (List.mem_filter.mp isUnit).1
      exact ⟨line, by rwa [MatchMode.stretches, map_fst_brokenLines], rfl⟩
  obtain ⟨stretch, isStretch, rfl⟩ := stretched
  rw [← filling.covers, List.map_map] at isStretch
  obtain ⟨entry, isEntry, rfl⟩ := List.mem_map.mp isStretch
  exact ⟨entry, isEntry, rfl⟩

end Filling

namespace Entry

variable (entry : Entry)

theorem inOrder_pieces_line : InOrder (entry.passage.pieces .line) entry.core := by
  have same : entry.passage.pieces .line = entry.passage.literals := List.map_id _
  rw [same]
  apply inOrder_weave
  rw [Passage.literals, List.length_cons, List.length_map, entry.length_values]

theorem inOrder_pieces_whole
    (levelled : ∀ value ∈ entry.values, MatchMode.whole.normalize value = value)
    (flanked : ∀ index : Nat, entry.values[index]? = some [] →
      Flanked (around entry.passage.literals entry.values index).1
        (around entry.passage.literals entry.values index).2) :
    InOrder (entry.passage.pieces .whole) (MatchMode.whole.normalize entry.core) :=
  Passage.inOrder_pieces_weave (trim_trim entry.stretch) entry.length_values
    (fun value member => trim_of_levelled (levelled value member)) flanked

end Entry

namespace Filling

variable {mode : MatchMode} {content : Text} (filling : Filling mode content)

theorem isSome_values? (kept : filling.KeepsBlanks)
    (levelled : ∀ entry ∈ filling.entries, ∀ value ∈ entry.values,
      MatchMode.whole.normalize value = value)
    {passage : Passage} (member : passage ∈ mode.passages content)
    (placeholders : passage.slots ≠ []) :
    (passage.values? mode (mode.normalize filling.text)).isSome := by
  obtain ⟨entry, isEntry, rfl⟩ := filling.exists_entry member
  have normal := levelled entry isEntry
  obtain ⟨above, below, split⟩ := List.append_of_mem isEntry
  obtain ⟨before, behind, -, -, within⟩ := entry.exists_text_eq
  have whole : filling.text =
      (above.flatMap Entry.text ++ before) ++ entry.core ++
        (behind ++ entry.ending ++ below.flatMap Entry.text) := by
    rw [text, split, List.flatMap_append, List.flatMap_cons, within]
    simp only [List.append_assoc]
  rw [whole]
  cases mode with
  | whole =>
    rw [Passage.isSome_values?_iff fun _ _ => rfl]
    have fits := entry.inOrder_pieces_whole normal (kept entry isEntry)
    exact fits.of_isInfix (normalize_isInfix .whole _ _ _)
  | line =>
    -- The filled line is not trimmed off, and as it holds no line feed it lies within a row.
    obtain ⟨begins, ends⟩ := kept above entry below split placeholders
    have stands : entry.core <:+: MatchMode.line.normalize
        ((above.flatMap Entry.text ++ before) ++ entry.core ++
          (behind ++ entry.ending ++ below.flatMap Entry.text)) := by
      apply infix_trim
      · exact begins.imp_left fun ⟨c, letter, visible⟩ =>
          ⟨c, List.mem_append_left _ letter, visible⟩
      · exact ends.imp_left fun ⟨c, letter, visible⟩ =>
          ⟨c, List.mem_append_right _ letter, visible⟩
    have unbroken : '\n' ∉ entry.core := by
      intro letter
      rcases mem_weave letter with ⟨literal, asked, letter⟩ | ⟨value, filled, letter⟩
      · have piece : literal ∈ entry.passage.pieces .line := List.mem_map.mpr ⟨literal, asked, rfl⟩
        exact not_lineFeed_of_mem_pieces member piece letter
      · exact not_lineFeed_of_levelled (normal value filled) letter
    obtain ⟨row, isRow, inside⟩ := exists_row_of_isInfix unbroken stands
    rw [Passage.values?_isSome_iff_row member]
    exact ⟨row, isRow, entry.inOrder_pieces_line.of_isInfix inside⟩

/-- A form whose fields are all blank is found as a whole only where no blank is lost. -/
theorem keepsBlanks_of_found (whole : mode = .whole)
    (blank : ∀ entry ∈ filling.entries, ∀ value ∈ entry.values, value = [])
    (found : Compiled.found mode content (mode.normalize filling.text) ≠ []) :
    filling.KeepsBlanks := by
  subst whole
  intro entry isEntry index empty
  obtain ⟨only, stretch, ending⟩ : filling.entries = [entry] ∧ entry.stretch = content ∧
      entry.ending = [] := by
    have covers := filling.covers
    obtain ⟨one, entries, stretched⟩ := List.map_eq_singleton_iff.mp covers
    rw [entries] at isEntry
    cases List.mem_singleton.mp isEntry
    exact ⟨entries, congrArg Prod.fst stretched, congrArg Prod.snd stretched⟩
  obtain ⟨before, behind, blankBefore, blankBehind, within⟩ := entry.exists_text_eq
  have levelled : MatchMode.whole.normalize filling.text =
      MatchMode.whole.normalize entry.core := by
    rw [text, only, List.flatMap_singleton, within, ending, List.append_nil, normalize_whole,
      normalize_whole, words_append_blanks blankBehind, words_blanks_append blankBefore]
  rw [Compiled.found_whole, levelled, ← stretch] at found
  have captured : (entry.passage.values? .whole (MatchMode.whole.normalize entry.core)).isSome := by
    by_contra missing
    rw [Option.not_isSome_iff_eq_none] at missing
    exact found (Passage.found_eq_nil_iff.mpr fun _ => missing)
  rw [Passage.isSome_values?_iff fun _ _ => rfl] at captured
  apply flanked_of_inOrder _ (blank entry isEntry) captured empty
  rw [Passage.literals, List.length_cons, List.length_map, entry.length_values]

end Filling

theorem Compiled.map_fst_found_of_all {mode : MatchMode} {content text : Text}
    (all : ∀ passage ∈ mode.passages content, passage.slots ≠ [] →
      (passage.values? mode text).isSome) :
    (found mode content text).map Prod.fst = (ofTemplate mode content).names.flatten := by
  rw [found, List.map_flatMap, ofTemplate, ← List.flatMap_def]
  apply List.flatMap_congr
  intro passage member
  by_cases placeholders : passage.slots = []
  · have nothing : passage.found mode text = [] :=
      Passage.found_eq_nil_iff.mpr fun some_slots => absurd placeholders some_slots
    rw [nothing, Passage.names, placeholders]
    rfl
  · obtain ⟨values, captured⟩ := Option.isSome_iff_exists.mp (all passage member placeholders)
    exact Passage.map_fst_found captured

/-- A form that is filled in fits its template, with blank fields as well: a lenient extractor
without a limit finds a value for each name. What is asked for is that values are levelled and that
no blank of the template is lost where nothing is filled in. A form taken as a whole whose fields are
all blank fits under that condition only. -/
theorem filled_form_fits (extractor : Extractor) (mode : Option MatchMode) (content : Text)
    (source : String) (filling : Filling (mode.getD extractor.mode) content)
    (lenient : extractor.strict = false) (unlimited : extractor.timeLimit = none)
    (placeholders : (Compiled.ofTemplate (mode.getD extractor.mode) content).placeholders ≠ [])
    (levelled : ∀ entry ∈ filling.entries, ∀ value ∈ entry.values,
      MatchMode.whole.normalize value = value) :
    let outcome := (extractor.extractText extractor.timeLimit.cutoff filling.text content mode
      source).outcome
    (filling.KeepsBlanks → ∃ extraction, outcome = .ok (some extraction) ∧
      extraction.values.names =
        (Compiled.ofTemplate (mode.getD extractor.mode) content).placeholders) ∧
    (mode.getD extractor.mode = .whole →
      (∀ entry ∈ filling.entries, ∀ value ∈ entry.values, value = []) →
      (∃ extraction, outcome = .ok (some extraction)) → filling.KeepsBlanks) := by
  have answer := extractor.outcome_extractText_lenient lenient unlimited filling.text content mode
    source
  intro outcome
  constructor
  · intro kept
    have names := Compiled.map_fst_found_of_all fun _ member some_slots =>
      filling.isSome_values? kept levelled member some_slots
    have present : Compiled.found (mode.getD extractor.mode) content
        ((mode.getD extractor.mode).normalize filling.text) ≠ [] := by
      intro nothing
      rw [nothing] at names
      exact placeholders (by rw [Compiled.placeholders, ← names]; rfl)
    dsimp only at answer
    rw [if_neg (by simpa using present)] at answer
    refine ⟨_, answer, ?_⟩
    rw [Bindings.names_report_empty, names]
    rfl
  · rintro whole blank ⟨extraction, matched⟩
    apply filling.keepsBlanks_of_found whole blank
    intro nothing
    have none_found := answer.symm.trans matched
    rw [nothing] at none_found
    exact absurd none_found (by simp)

/-- Blank fields at both ends, where visible characters stand beside them, and a filled one. -/
theorem filled_form_fits_blank_ends :
    let content := "{%X%}No. {%Y%} of{%Z%}\n".toList
    let entry : Entry := ⟨content, [], [[], "1 2".toList, []], by decide +kernel⟩
    let filling : Filling .whole content := ⟨[entry], rfl⟩
    let repository : Repository :=
      { files := MemoryFiles.empty.fileSystem, scoring := fun _ _ => .zero, mode := .line }
    let extractor : Extractor := { repository, mode := .whole, strict := false, timeLimit := none }
    filling.text = "No. 1 2 of\n".toList ∧
    ∃ extraction,
      (extractor.extractText .never filling.text content none "form").outcome =
        .ok (some extraction) ∧
      extraction.values.names = ["X".toList, "Y".toList, "Z".toList] := by
  intro content entry filling repository extractor
  have names : (Compiled.ofTemplate .whole content).placeholders =
      ["X".toList, "Y".toList, "Z".toList] := by decide +kernel
  have kept : filling.KeepsBlanks := by
    intro other member index empty
    cases List.mem_singleton.mp member
    match index with
    | 0 => exact .inr (.inr ⟨'N', by decide +kernel, by decide⟩)
    | 1 => exact absurd empty (by decide +kernel)
    | 2 => exact .inr (.inl ⟨'f', by decide +kernel, by decide⟩)
    | _ + 3 => exact absurd empty (by simp [entry])
  have fits := (filled_form_fits extractor none content "form" filling rfl rfl (by
    rw [show Option.none.getD extractor.mode = .whole from rfl, names]
    simp) (by decide +kernel)).1 kept
  obtain ⟨extraction, matched, named⟩ := fits
  exact ⟨by decide +kernel, extraction, matched, named.trans names⟩

/-- The blank behind the colon belongs to the template. Where nothing is filled in behind it, it is
trimmed off the form, and the form does not fit in either mode. -/
theorem blank_field_loses_a_blank :
    let content := "Note: {%Note%}".toList
    let entry : Entry := ⟨content, [], [[]], by decide +kernel⟩
    let whole : Filling .whole content := ⟨[entry], rfl⟩
    let byLine : Filling .line content := ⟨[entry], by decide +kernel⟩
    let repository : Repository :=
      { files := MemoryFiles.empty.fileSystem, scoring := fun _ _ => .zero, mode := .line }
    let extractor : Extractor := { repository, mode := .whole, strict := false, timeLimit := none }
    (Compiled.ofTemplate .whole content).placeholders = ["Note".toList] ∧
    (Compiled.ofTemplate .line content).placeholders = ["Note".toList] ∧
    whole.text = "Note: ".toList ∧ byLine.text = "Note: ".toList ∧
    (extractor.extractText .never whole.text content (some .whole) "form").outcome = .ok none ∧
    (extractor.extractText .never byLine.text content (some .line) "form").outcome = .ok none := by
  intro content entry whole byLine repository extractor
  have lost (mode : MatchMode) : Compiled.found mode content
      (mode.normalize "Note: ".toList) = [] := by
    cases mode <;> decide +kernel
  have answer (mode : MatchMode) :
      (extractor.extractText .never "Note: ".toList content (some mode) "form").outcome =
        .ok none := by
    have answered := extractor.outcome_extractText_lenient rfl rfl "Note: ".toList content
      (some mode) "form"
    simp only [Option.getD_some, lost] at answered
    exact answered
  have text : whole.text = "Note: ".toList := by decide +kernel
  have text' : byLine.text = "Note: ".toList := by decide +kernel
  rw [text, text']
  exact ⟨by decide +kernel, by decide +kernel, rfl, rfl, answer .whole, answer .line⟩

end Stencil
