import Stencil.Proofs.RowOrder
import Stencil.Proofs.TemplateLines
import Stencil.Proofs.Weaving

/-! Templates that are read as a whole and line by line.

No placeholder holds a line feed, so reading a text from the left starts afresh behind each of its line
feeds: the placeholders of the whole are those of its lines, one line after the other. Nor does a
delimiter hold a blank, so that one is left over in the whole exactly when one is left over in a line.
Blanks at the ends belong to no placeholder either, whether a text is trimmed or each of its lines.
-/

set_option autoImplicit false

namespace Stencil

open Text

/-! ## What stands behind a text -/

theorem delimiterFree_append {first second : Text}
    (begins : ∀ c ∈ second.head?, isBlank c = true) :
    DelimiterFree (first ++ second) ↔ DelimiterFree first ∧ DelimiterFree second := by
  induction first with
  | nil => simp [delimiterFree_nil]
  | cons c rest ih =>
    -- Both delimiters go on with a visible letter, which a blank behind the text cannot be.
    have next (d : Char) (visible : isBlank d = false) :
        (rest ++ second).head? = some d ↔ rest.head? = some d := by
      cases rest with
      | cons e rest => rfl
      | nil =>
        refine iff_of_false (fun first => ?_) (by simp)
        rw [begins d first] at visible
        exact absurd visible (by decide)
    rw [List.cons_append, delimiterFree_cons, delimiterFree_cons, ih, next '%' (by decide),
      next '}' (by decide)]
    tauto

theorem delimiterFree_blanks_append {blanks : Text} (blank : ∀ c ∈ blanks, isBlank c = true)
    (literal : Text) : DelimiterFree (blanks ++ literal) ↔ DelimiterFree literal := by
  induction blanks with
  | nil => rfl
  | cons c blanks ih =>
    obtain ⟨here, later⟩ := List.forall_mem_cons.mp blank
    rw [List.cons_append, delimiterFree_blank_cons here, ih later]

namespace Placeholder

theorem Spelling.lineFeed_not_mem (spelling : Spelling) : '\n' ∉ spelling.text := by
  intro member
  simp only [Spelling.text, List.mem_append, List.mem_cons, List.not_mem_nil, or_false] at member
  rcases member with (((opening | before) | named) | behind) | closing
  · exact absurd opening (by decide)
  · exact absurd (spelling.before_padding _ before) (by decide)
  · exact (spelling.isName.letters _ named).2 rfl
  · exact absurd (spelling.behind_padding _ behind) (by decide)
  · exact absurd closing (by decide)

theorem read?_append_lineFeed {line rest : Text} (missing : read? line = none) :
    read? (line ++ '\n' :: rest) = none := by
  by_contra found
  obtain ⟨⟨name, after⟩, found⟩ := Option.ne_none_iff_exists'.mp found
  obtain ⟨spelling, -, written⟩ := exists_spelling_of_read? found
  -- What is read ends within the line, where it would be read alone, or runs over the line feed.
  rcases List.append_eq_append_iff.mp written with ⟨more, closes, behind⟩ | ⟨more, longer, -⟩
  · cases more with
    | nil =>
      have whole := read?_text spelling []
      rw [List.append_nil, closes, List.append_nil, missing] at whole
      exact absurd whole (by simp)
    | cons c more =>
      cases (List.cons.inj behind).1
      exact spelling.lineFeed_not_mem (by rw [closes]; simp)
  · rw [longer, read?_text] at missing
    exact absurd missing (by simp)

end Placeholder

namespace Passage

/-- No literal of a passage opens or closes a placeholder. -/
def Clear (passage : Passage) : Prop :=
  ∀ literal ∈ passage.literals, DelimiterFree literal

theorem literals_push (c : Char) (passage : Passage) :
    (passage.push c).literals = passage.literals.modifyHead (c :: ·) := rfl

/-- Where what stands behind a text completes no placeholder in it, the last literal of the text goes
on with the first one behind it, and nothing else changes. -/
theorem ofText_append {line tail : Text}
    (apart : ∀ rest, Placeholder.read? rest = none → Placeholder.read? (rest ++ tail) = none) :
    (ofText (line ++ tail)).names = (ofText line).names ++ (ofText tail).names ∧
      ∃ front last, (ofText line).literals = front ++ [last] ∧
        (ofText (line ++ tail)).literals =
          front ++ (last ++ (ofText tail).lead) :: (ofText tail).slots.map Slot.after := by
  induction line using ofText.induct with
  | case1 => exact ⟨by simp [ofText_nil, names], [], [], by simp [ofText_nil, literals], rfl⟩
  | case2 first rest name after found ih =>
    obtain ⟨named, front, last, split, split'⟩ := ih
    rw [ofText_placeholder found, ofText_placeholder (Placeholder.read?_append found tail)]
    refine ⟨congrArg (name :: ·) named, [] :: front, last, ?_, ?_⟩
    · exact congrArg ([] :: ·) split
    · exact congrArg ([] :: ·) split'
  | case3 first rest missing ih =>
    obtain ⟨named, front, last, split, split'⟩ := ih
    have missing' := apart _ missing
    rw [List.cons_append] at missing' ⊢
    rw [ofText_letter missing, ofText_letter missing']
    refine ⟨named, ?_⟩
    -- The letter goes to the first literal, which is the last one where there is no placeholder.
    cases front with
    | nil =>
      exact ⟨[], first :: last, by rw [literals_push, split]; rfl, by rw [literals_push, split']; rfl⟩
    | cons lead front =>
      exact ⟨(first :: lead) :: front, last, by rw [literals_push, split]; rfl,
        by rw [literals_push, split']; rfl⟩

theorem clear_append {line tail : Text}
    (apart : ∀ rest, Placeholder.read? rest = none → Placeholder.read? (rest ++ tail) = none)
    (begins : ∀ c ∈ (ofText tail).lead.head?, isBlank c = true) :
    (ofText (line ++ tail)).Clear ↔ (ofText line).Clear ∧ (ofText tail).Clear := by
  obtain ⟨-, front, last, split, split'⟩ := @ofText_append line tail apart
  have own : (ofText tail).literals = (ofText tail).lead :: (ofText tail).slots.map Slot.after := rfl
  simp only [Clear, split, split', own, List.forall_mem_append, List.forall_mem_cons,
    delimiterFree_append begins, List.not_mem_nil, false_imp_iff, implies_true, true_and, and_assoc]

theorem clear_blanks_append {blanks : Text} (blank : ∀ c ∈ blanks, isBlank c = true)
    (text : Text) : (ofText (blanks ++ text)).Clear ↔ (ofText text).Clear := by
  rw [ofText_blanks blank]
  simp only [Clear, literals, List.forall_mem_cons, delimiterFree_blanks_append blank]

theorem clear_trim (text : Text) : (ofText text.trim).Clear ↔ (ofText text).Clear := by
  obtain ⟨front, frontBlank, whole⟩ := exists_blanks_append_trimStart text
  obtain ⟨back, backBlank, cut⟩ := exists_trimEnd_append_blanks text.trimStart
  have alone : ofText back = ⟨back, []⟩ := by
    have read := ofText_blanks backBlank []
    rwa [List.append_nil, ofText_nil, List.append_nil] at read
  have behind : (ofText back).Clear := by
    have clear := clear_blanks_append backBlank []
    rw [List.append_nil, ofText_nil] at clear
    exact clear.mpr (by simp [Clear, literals, delimiterFree_nil])
  have ends := @clear_append text.trim back
    (fun rest missing => Placeholder.read?_append_blanks missing backBlank)
    (by rw [alone]; exact fun c first => backBlank c (List.mem_of_head? first))
  conv_rhs => rw [whole, clear_blanks_append frontBlank, cut]
  exact (ends.trans (and_iff_left behind)).symm

/-! ## Texts of several lines -/

theorem ofText_lineFeed (rest : Text) :
    ofText ('\n' :: rest) = ⟨'\n' :: (ofText rest).lead, (ofText rest).slots⟩ :=
  @ofText_blanks ['\n'] (List.forall_mem_singleton.mpr rfl) rest

theorem ofText_intercalate (lines : List Text) :
    (ofText (['\n'].intercalate lines)).names = lines.flatMap (fun line => (ofText line).names) ∧
      ((ofText (['\n'].intercalate lines)).Clear ↔ ∀ line ∈ lines, (ofText line).Clear) := by
  induction lines with
  | nil =>
    rw [List.intercalate_nil, ofText_nil]
    exact ⟨rfl, by simp [Clear, literals, delimiterFree_nil]⟩
  | cons first rest ih =>
    cases rest with
    | nil => simp
    | cons next rest =>
      obtain ⟨named, clear⟩ := ih
      let tail := '\n' :: ['\n'].intercalate (next :: rest)
      have apart : ∀ front, Placeholder.read? front = none →
          Placeholder.read? (front ++ tail) = none :=
        fun front missing => Placeholder.read?_append_lineFeed missing
      have begins : ∀ c ∈ (ofText tail).lead.head?, isBlank c = true := by
        rw [ofText_lineFeed]
        rintro c ⟨⟩
        decide
      have behind : (ofText tail).Clear ↔ _ :=
        @clear_blanks_append ['\n'] (List.forall_mem_singleton.mpr rfl)
          (['\n'].intercalate (next :: rest))
      rw [List.intercalate_cons_cons, List.append_assoc, List.singleton_append]
      constructor
      · rw [(@ofText_append first tail apart).1, List.flatMap_cons, ← named, ofText_lineFeed]
        rfl
      · rw [clear_append apart begins, behind, clear]
        exact (@List.forall_mem_cons _ (fun line => (ofText line).Clear) _ _).symm

end Passage

/-! ## Both modes -/

theorem malformed_eq_nil_iff_clear {mode : MatchMode} {content : Text} :
    mode.malformed content = [] ↔ ∀ unit ∈ mode.units content, (Passage.ofText unit).Clear := by
  rw [malformed_eq_nil_iff]
  exact forall₂_congr fun _ _ => exists_rendering_iff

theorem units_of_lineFeeds {content : Text}
    (breaks : ∀ c ∈ content, isLineBreak c = true → c = '\n') :
    MatchMode.line.units content =
      ((content.splitOn '\n').map Text.trim).filter (!·.isEmpty) := by
  have unbroken : ∀ row ∈ content.splitOn '\n', ∀ c ∈ row, isLineBreak c = false := by
    intro row member c letter
    have inside := mem_intercalate_of_mem member letter
    rw [List.intercalate_splitOn] at inside
    by_contra ends
    cases breaks c inside (by simpa using ends)
    exact not_mem_of_mem_splitOn member letter
  rw [← MatchMode.units_intercalate unbroken, List.intercalate_splitOn]

theorem names_ofTemplate_line {content : Text}
    (breaks : ∀ c ∈ content, isLineBreak c = true → c = '\n') :
    (Compiled.ofTemplate .line content).names.flatten =
      (content.splitOn '\n').flatMap fun row => (Passage.ofText row).names := by
  simp only [Compiled.ofTemplate, MatchMode.passages, units_of_lineFeeds breaks, List.map_map]
  induction content.splitOn '\n' with
  | nil => rfl
  | cons row later ih =>
    have named := (Passage.weave_trim row).1
    rw [List.map_cons, List.flatMap_cons, ← ih, ← named]
    cases trim row with
    | nil =>
      rw [Passage.ofText_nil]
      rfl
    | cons c rest => rfl

theorem malformed_line_eq_nil_iff {content : Text}
    (breaks : ∀ c ∈ content, isLineBreak c = true → c = '\n') :
    MatchMode.line.malformed content = [] ↔
      ∀ row ∈ content.splitOn '\n', (Passage.ofText row).Clear := by
  rw [malformed_eq_nil_iff_clear, units_of_lineFeeds breaks]
  simp only [List.mem_filter, List.mem_map, and_imp, forall_exists_index,
    forall_apply_eq_imp_iff₂]
  refine forall₂_congr fun row _ => ?_
  rw [← Passage.clear_trim row]
  cases trim row with
  | nil => simp [Passage.ofText_nil, Passage.Clear, Passage.literals, delimiterFree_nil]
  | cons c rest => simp

/-- Both modes recognise the same placeholders in a template whose only line breaks are line feeds. The
names beside the one pattern of the whole are the names beside the patterns of the lines, one line
after the other, malformed placeholders or not. Strict compilation fails in both modes or in none. -/
theorem modes_recognise_the_same_placeholders (content : Text) (label : String)
    (breaks : ∀ c ∈ content, isLineBreak c = true → c = '\n') :
    (∃ whole line,
      (Compiled.compile .whole false label content).outcome = .ok whole ∧
      (Compiled.compile .line false label content).outcome = .ok line ∧
      whole.names = [line.names.flatten] ∧
      whole.placeholders = line.placeholders) ∧
    ((∃ failure, (Compiled.compile .whole true label content).outcome = .error failure) ↔
      ∃ failure, (Compiled.compile .line true label content).outcome = .error failure) := by
  obtain ⟨named, clear⟩ := Passage.ofText_intercalate (content.splitOn '\n')
  rw [List.intercalate_splitOn] at named clear
  have names : (Compiled.ofTemplate .whole content).names =
      [(Compiled.ofTemplate .line content).names.flatten] := by
    rw [Compiled.ofTemplate_whole, (Passage.weave_trim content).1, named,
      names_ofTemplate_line breaks]
  have strays : MatchMode.whole.malformed content = [] ↔ MatchMode.line.malformed content = [] := by
    rw [malformed_eq_nil_iff_clear, MatchMode.units, List.forall_mem_singleton, Passage.clear_trim,
      clear, malformed_line_eq_nil_iff breaks]
  refine ⟨⟨_, _, Compiled.outcome_compile_lenient .whole label content,
    Compiled.outcome_compile_lenient .line label content, names, ?_⟩, ?_⟩
  · rw [Compiled.placeholders, Compiled.placeholders, names, List.flatten_singleton]
  · simp only [Compiled.exists_error_compile_strict_iff, ne_eq, strays]

/-- The delimiters on both sides of the line feed are no placeholder together. -/
theorem modes_recognise_the_same_placeholders_on_two_lines :
    let content := "{%A%} \x7b%\n%\x7d {%B %}".toList
    (∀ c ∈ content, isLineBreak c = true → c = '\n') ∧
    (∃ whole line,
      (Compiled.compile .whole false "form" content).outcome = .ok whole ∧
      (Compiled.compile .line false "form" content).outcome = .ok line ∧
      whole.names = [["A".toList, "B".toList]] ∧
      line.names = [["A".toList], ["B".toList]]) ∧
    (∃ failure, (Compiled.compile .line true "form" content).outcome = .error failure) ∧
    ∃ failure, (Compiled.compile .whole true "form" content).outcome = .error failure := by
  intro content
  have only : content.filter isLineBreak = ['\n'] := by decide
  have breaks : ∀ c ∈ content, isLineBreak c = true → c = '\n' :=
    fun c member ends => List.mem_singleton.mp (only ▸ List.mem_filter.mpr ⟨member, ends⟩)
  obtain ⟨⟨whole, line, compiles, compiles', joined, -⟩, fails⟩ :=
    modes_recognise_the_same_placeholders content "form" breaks
  have lines : line.names = [["A".toList], ["B".toList]] := by
    cases Compiled.eq_ofTemplate_of_compile compiles'
    decide +kernel
  have stops : ∃ failure, (Compiled.compile .line true "form" content).outcome = .error failure :=
    Compiled.exists_error_compile_strict_iff.mpr (by decide +kernel)
  refine ⟨breaks, ⟨whole, line, compiles, compiles', ?_, lines⟩, stops, fails.mpr stops⟩
  rw [joined, lines]
  rfl

end Stencil
