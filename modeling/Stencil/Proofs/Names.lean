import Stencil.Proofs.OwnText

/-! Names of placeholders as keys.

A name begins with a visible character, ends with neither a space nor a tab, and holds neither a percent
sign nor a line feed; every such text is the name of a placeholder. So only its last character decides
whether a name has blanks at its ends, and that may be any blank but those three. Line by line, a
template is cut at every line break before its names are read. Read as a whole it is not cut, and a name
may run over each line break but the line feed.
-/

set_option autoImplicit false

namespace Stencil

open Text

/-- A name under which some template, compiled in whatever way, reports a value. -/
def IsKey (mode : MatchMode) (name : Text) : Prop :=
  ∃ (strict : Bool) (label : String) (content : Text) (compiled : Compiled),
    (Compiled.compile mode strict label content).outcome = .ok compiled ∧
    ∃ names ∈ compiled.names, name ∈ names

/-- Characters that a name may hold. -/
def MatchMode.InKeys (mode : MatchMode) (c : Char) : Prop :=
  c ≠ '%' ∧ c ≠ '\n' ∧ (mode = .line → isLineBreak c = false)

namespace Passage

theorem exists_spelling_of_mem_names {text name : Text} (member : name ∈ (ofText text).names) :
    ∃ spelling : Placeholder.Spelling, spelling.name = name ∧ spelling.text <:+: text := by
  induction text using ofText.induct with
  | case1 =>
    rw [ofText_nil] at member
    exact absurd member List.not_mem_nil
  | case2 first rest other after found ih =>
    obtain ⟨spelling, rfl, written⟩ := Placeholder.exists_spelling_of_read? found
    rw [ofText_placeholder found] at member
    rw [written]
    rcases List.mem_cons.mp member with rfl | later
    · exact ⟨spelling, rfl, (List.prefix_append _ after).isInfix⟩
    · obtain ⟨behind, named, inside⟩ := ih later
      exact ⟨behind, named, inside.trans (List.suffix_append _ after).isInfix⟩
  | case3 first rest missing ih =>
    rw [ofText_letter missing] at member
    obtain ⟨spelling, named, inside⟩ := ih member
    exact ⟨spelling, named, inside.trans (List.suffix_cons first rest).isInfix⟩

theorem names_spelling (spelling : Placeholder.Spelling) :
    (ofText spelling.text).names = [spelling.name] := by
  have read := Placeholder.read?_text spelling []
  rw [List.append_nil] at read
  rw [ofText_placeholder read, ofText_nil]
  rfl

end Passage

namespace MatchMode

theorem unbroken_of_mem_units {content unit : Text} (member : unit ∈ line.units content) :
    ∀ c ∈ unit, isLineBreak c = false := by
  obtain ⟨row, isLine, rfl⟩ := List.mem_map.mp (List.mem_filter.mp member).1
  exact fun c letter => not_lineBreak_of_mem_lines isLine ((trim_sublist row).subset letter)

theorem units_spelling {mode : MatchMode} {spelling : Placeholder.Spelling}
    (unbroken : mode = .line → ∀ c ∈ spelling.text, isLineBreak c = false) :
    mode.units spelling.text = [spelling.text] := by
  cases mode with
  | whole => rw [units, spelling.trim_text]
  | line =>
    have one : spelling.text.isEmpty = false := by simpa using spelling.text_ne_nil
    rw [units, lines_of_unbroken (unbroken rfl), one, if_neg (by simp), List.map_singleton,
      spelling.trim_text, List.filter_singleton, one]
    rfl

end MatchMode

/-- A name between bare delimiters. -/
def Placeholder.IsName.spelling {name : Text} (isName : IsName name) : Spelling :=
  { before := [], name, behind := [], before_padding := by simp, behind_padding := by simp, isName }

/-- The keys are the names, without line breaks where templates are cut at these. -/
theorem isKey_iff {mode : MatchMode} {name : Text} :
    IsKey mode name ↔
      Placeholder.IsName name ∧ (mode = .line → ∀ c ∈ name, isLineBreak c = false) := by
  constructor
  · rintro ⟨strict, label, content, compiled, compiles, names, isNames, member⟩
    cases Compiled.eq_ofTemplate_of_compile compiles
    simp only [Compiled.ofTemplate, MatchMode.passages, List.map_map, List.mem_map,
      Function.comp_apply] at isNames
    obtain ⟨unit, isUnit, rfl⟩ := isNames
    obtain ⟨spelling, rfl, inside⟩ := Passage.exists_spelling_of_mem_names member
    refine ⟨spelling.isName, ?_⟩
    rintro rfl c letter
    have written : c ∈ spelling.text := by simp [Placeholder.Spelling.text, letter]
    exact MatchMode.unbroken_of_mem_units isUnit c (inside.subset written)
  · rintro ⟨isName, unbroken⟩
    -- The placeholder alone is a template with this name.
    have written : mode = .line → ∀ c ∈ isName.spelling.text, isLineBreak c = false := by
      intro line c letter
      simp only [Placeholder.Spelling.text, Placeholder.IsName.spelling, List.append_nil,
        List.mem_append, List.mem_cons, List.not_mem_nil, or_false] at letter
      rcases letter with ((rfl | rfl) | named) | rfl | rfl
      · decide
      · decide
      · exact unbroken line c named
      · decide
      · decide
    refine ⟨false, "form", isName.spelling.text, _, Compiled.outcome_compile_lenient _ _ _, [name],
      ?_, List.mem_singleton_self name⟩
    simp only [Compiled.ofTemplate, MatchMode.passages, MatchMode.units_spelling written,
      List.map_singleton, Passage.names_spelling]
    exact List.mem_singleton_self _

theorem isKey_iff_letters {mode : MatchMode} {name : Text} :
    IsKey mode name ↔
      name ≠ [] ∧ (∀ c ∈ name, mode.InKeys c) ∧ (∀ c ∈ name.head?, isBlank c = false) ∧
        ∀ c ∈ name.getLast?, c ≠ ' ' ∧ c ≠ '\t' := by
  rw [isKey_iff]
  constructor
  · rintro ⟨⟨nonempty, letters, begins, ends⟩, unbroken⟩
    refine ⟨nonempty, fun c letter => ?_, begins, ends⟩
    obtain ⟨percent, lineFeed⟩ := letters c letter
    exact ⟨percent, lineFeed, fun line => unbroken line c letter⟩
  · rintro ⟨nonempty, letters, begins, ends⟩
    refine ⟨⟨nonempty, fun c letter => ?_, begins, ends⟩, fun line c letter => ?_⟩
    · obtain ⟨percent, lineFeed, -⟩ := letters c letter
      exact ⟨percent, lineFeed⟩
    · exact (letters c letter).2.2 line

theorem isKey_letter_cons {mode : MatchMode} {rest : Text} (letters : ∀ c ∈ rest, mode.InKeys c)
    (ends : ∀ c ∈ rest.getLast?, c ≠ ' ' ∧ c ≠ '\t') : IsKey mode ('a' :: rest) := by
  refine isKey_iff_letters.mpr ⟨by simp, ?_, ?_, ?_⟩
  · exact List.forall_mem_cons.mpr ⟨⟨by decide, by decide, fun _ => by decide⟩, letters⟩
  · rintro _ ⟨⟩
    decide
  · cases rest with
    | nil =>
      rintro _ ⟨⟩
      decide
    | cons c rest => rwa [List.getLast?_cons_cons]

/-- The names that compiling yields are exactly the texts that are not empty, hold neither a percent sign
nor a line feed, begin with a visible character and end with neither a space nor a tab; line by line
they hold no line break at all. They have no blank in front, and none behind either exactly when their
last character is visible. Every character that is not excluded by this stands in some name: as the last
one also each other blank, and in whole mode each line break but the line feed. -/
theorem keys_are_clean_up_to_their_end (mode : MatchMode) :
    (∀ name, IsKey mode name ↔
      name ≠ [] ∧ (∀ c ∈ name, mode.InKeys c) ∧ (∀ c ∈ name.head?, isBlank c = false) ∧
        ∀ c ∈ name.getLast?, c ≠ ' ' ∧ c ≠ '\t') ∧
    (∀ name, IsKey mode name → name.trimStart = name ∧
      (name.trim = name ↔ ∀ c ∈ name.getLast?, isBlank c = false)) ∧
    (∀ c, (∃ name, IsKey mode name ∧ c ∈ name) ↔ mode.InKeys c) ∧
    ∀ c, (∃ name, IsKey mode name ∧ c ∈ name.getLast?) ↔ mode.InKeys c ∧ c ≠ ' ' ∧ c ≠ '\t' := by
  refine ⟨fun _ => isKey_iff_letters, fun name isKey => ?_, fun c => ?_, fun c => ?_⟩
  · obtain ⟨-, -, begins, -⟩ := isKey_iff_letters.mp isKey
    refine ⟨trimStart_eq_self begins, fun trimmed c last => ?_, trim_eq_self begins⟩
    rw [← trimmed] at last
    exact not_blank_of_getLast?_trim last
  · constructor
    · rintro ⟨name, isKey, letter⟩
      exact (isKey_iff_letters.mp isKey).2.1 c letter
    · intro inKeys
      have visible : mode.InKeys 'a' := ⟨by decide, by decide, fun _ => by decide⟩
      exact ⟨['a', c, 'a'], isKey_letter_cons (by simp [inKeys, visible]) (by simp), by simp⟩
  · constructor
    · rintro ⟨name, isKey, last⟩
      obtain ⟨-, letters, -, ends⟩ := isKey_iff_letters.mp isKey
      exact ⟨letters c (List.mem_of_getLast? last), ends c last⟩
    · rintro ⟨inKeys, ends⟩
      refine ⟨['a', c], isKey_letter_cons (by simp [inKeys]) ?_, rfl⟩
      rintro _ ⟨⟩
      exact ends

/-- A name that ends with a blank which is no padding, in either mode, and one of two lines. Strict
compilation does not refuse them. -/
theorem keys_keep_a_blank_and_a_line_break :
    let padded := "Name: \x7b%Name\u00a0%\x7d".toList
    let broken := "Name: \x7b%Full\rName%\x7d".toList
    (∀ mode ∈ [MatchMode.whole, MatchMode.line], ∃ compiled,
      (Compiled.compile mode true "form" padded).outcome = .ok compiled ∧
      compiled.names = [["Name\u00a0".toList]]) ∧
    trim "Name\u00a0".toList = "Name".toList ∧
    (∃ compiled, (Compiled.compile .whole true "form" broken).outcome = .ok compiled ∧
      compiled.names = [["Full\rName".toList]]) ∧
    lines "Full\rName".toList = ["Full".toList, "Name".toList] := by
  refine ⟨?_, by decide +kernel, ?_, by decide +kernel⟩
  · intro mode isMode
    refine ⟨_, Compiled.outcome_compile_of_malformed_nil ?_ true "form", ?_⟩
    · revert mode
      decide +kernel
    · revert mode
      decide +kernel
  · exact ⟨_, Compiled.outcome_compile_of_malformed_nil (by decide +kernel) true "form",
      by decide +kernel⟩

end Stencil
