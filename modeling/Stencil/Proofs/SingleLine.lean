import Mathlib.Data.List.Infix
import Stencil.Proofs.Filling

/-! Templates and texts of one line.

Where a template has no line break and its literal text no more than single spaces, there is nothing to
level and one line at most to search for. Where a text comes out the same in both modes, no line feed
is left in it, and a gap may cross all of it in either mode. The modes then differ in nothing.
-/

set_option autoImplicit false

namespace Stencil

namespace Text

/-- The only blanks of a text are spaces, and no two of them are neighbours. -/
def SingleSpaced (text : Text) : Prop :=
  (∀ c ∈ text, isBlank c = true → c = ' ') ∧ ¬ [' ', ' '] <:+: text

theorem SingleSpaced.all_iff {text : Text} :
    (text.all (fun c => !isBlank c || c == ' ') = true ∧ ¬ [' ', ' '] <:+: text) ↔
      SingleSpaced text := by
  simp [SingleSpaced, ← Bool.not_eq_true, ← imp_iff_not_or]

instance SingleSpaced.decidable (text : Text) : Decidable (SingleSpaced text) :=
  decidable_of_iff _ all_iff

theorem SingleSpaced.collapseAfter_eq_self {text : Text} (spaced : SingleSpaced text)
    {followsBlank : Bool} (visible : followsBlank = true → ∀ c ∈ text.head?, isBlank c = false) :
    collapseAfter followsBlank text = text := by
  induction text generalizing followsBlank with
  | nil => rfl
  | cons c rest ih =>
    obtain ⟨spaces, apart⟩ := spaced
    have later : SingleSpaced rest :=
      ⟨fun d letter => spaces d (List.mem_cons_of_mem c letter),
        fun twice => apart (List.infix_cons twice)⟩
    rw [collapseAfter]
    by_cases blank : isBlank c = true
    · cases spaces c List.mem_cons_self blank
      have first : followsBlank = false := by
        by_contra second
        have shown := visible (by simpa using second) ' ' rfl
        exact absurd shown (by decide)
      -- Behind a space stands a visible letter, or there would be two spaces.
      have next : ∀ d ∈ rest.head?, isBlank d = false := by
        intro d isNext
        by_contra alsoBlank
        obtain ⟨behind, rfl⟩ := List.head?_eq_some_iff.mp isNext
        cases later.1 d List.mem_cons_self (by simpa using alsoBlank)
        exact apart ⟨[], behind, rfl⟩
      rw [if_pos blank, first, if_neg (by simp), ih later fun _ => next]
    · rw [if_neg blank, ih later (by simp)]

theorem SingleSpaced.collapse_eq_self {text : Text} (spaced : SingleSpaced text) :
    collapse text = text :=
  spaced.collapseAfter_eq_self (by simp)

theorem not_lineFeed_of_normalize_eq {text : Text}
    (same : MatchMode.whole.normalize text = MatchMode.line.normalize text) :
    '\n' ∉ MatchMode.line.normalize text := by
  intro letter
  rw [← same] at letter
  have levelled : '\n' ∈ collapse text := (trim_sublist _).subset letter
  exact absurd (eq_space_of_mem_collapseAfter levelled (by decide)) (by decide)

end Text

theorem MatchMode.passages_line_of_unbroken {content : Text}
    (unbroken : ∀ c ∈ content, Text.isLineBreak c = false) :
    MatchMode.line.passages content =
      if content.trim = [] then [] else [Passage.ofText content.trim] := by
  unfold passages units
  rw [Text.lines_of_unbroken unbroken]
  cases content with
  | nil => rfl
  | cons c rest =>
    rw [List.isEmpty_cons, if_neg (by simp), List.map_singleton]
    by_cases blank : Text.trim (c :: rest) = [] <;> simp [blank]

theorem MatchMode.passages_whole (content : Text) :
    MatchMode.whole.passages content = [Passage.ofText content.trim] := rfl

namespace Passage

/-- Where literals need no levelling and a text has no line feed, both modes read the same values. -/
theorem values?_whole_eq_line {passage : Passage} {text : Text}
    (spaced : ∀ literal ∈ passage.literals, Text.SingleSpaced literal) (unbroken : '\n' ∉ text) :
    passage.values? .whole text = passage.values? .line text := by
  have same : passage.pieces .whole = passage.pieces .line :=
    List.map_congr_left fun literal member => (spaced literal member).collapse_eq_self
  by_cases fits : Text.InOrder (passage.pieces .line) text
  · obtain ⟨start, starts, placed⟩ := exists_placed fits
    rw [values?_of_placed (crosses_of_not_mem unbroken) placed]
    rw [← same] at placed ⊢
    exact values?_of_placed (fun _ _ => rfl) placed
  · rw [values?_of_not_inOrder fits]
    rw [← same] at fits
    exact values?_of_not_inOrder fits

end Passage

section
variable {content text : Text} (unbroken : ∀ c ∈ content, Text.isLineBreak c = false)
include unbroken

theorem MatchMode.malformed_whole_eq_line :
    MatchMode.whole.malformed content = MatchMode.line.malformed content := by
  unfold malformed
  rw [passages_line_of_unbroken unbroken, passages_whole]
  by_cases blank : content.trim = []
  · rw [if_pos blank, blank, Passage.ofText_nil]
    rfl
  · rw [if_neg blank]

theorem Compiled.found_whole_eq_line
    (spaced : ∀ literal ∈ (Passage.ofText content.trim).literals, Text.SingleSpaced literal)
    (flat : '\n' ∉ text) : found .whole content text = found .line content text := by
  have read := Passage.values?_whole_eq_line spaced flat
  unfold found
  rw [MatchMode.passages_line_of_unbroken unbroken, MatchMode.passages_whole]
  by_cases blank : content.trim = []
  · have nothing : (Passage.ofText content.trim).slots = [] := by rw [blank, Passage.ofText_nil]
    rw [if_pos blank, List.flatMap_singleton, Passage.found_eq_nil_iff.mpr (absurd nothing)]
    rfl
  · rw [if_neg blank, List.flatMap_singleton, List.flatMap_singleton, Passage.found, Passage.found,
      read]

end

/-- Both modes agree on a template of one line whose literal text has single spaces only, and on a text
that comes out the same in both. A blank template, which is one passage without placeholders in one
mode and no passage in the other, yields nothing in either. -/
theorem modes_agree_on_single_lines (extractor : Extractor) (mode mode' : Option MatchMode)
    (content text : Text) (source : String) (unlimited : extractor.timeLimit = none)
    (whole : mode.getD extractor.mode = .whole) (byLine : mode'.getD extractor.mode = .line)
    (unbroken : ∀ c ∈ content, Text.isLineBreak c = false)
    (spaced : ∀ literal ∈ (Passage.ofText content.trim).literals, Text.SingleSpaced literal)
    (same : MatchMode.whole.normalize text = MatchMode.line.normalize text) :
    let answer := fun mode =>
      (extractor.extractText extractor.timeLimit.cutoff text content mode source).outcome
    answer mode = answer mode' ∧ (content.trim = [] → answer mode = .ok none) := by
  intro answer
  have found := Compiled.found_whole_eq_line unbroken spaced (Text.not_lineFeed_of_normalize_eq same)
  have strays := MatchMode.malformed_whole_eq_line unbroken
  simp only [answer, Extractor.outcome_extractText_unlimited unlimited, whole, byLine, same, found,
    strays, true_and]
  intro blank
  have none_left : MatchMode.line.passages content = [] := by
    rw [MatchMode.passages_line_of_unbroken unbroken, if_pos blank]
  have nothing : Compiled.found .line content (MatchMode.line.normalize text) = [] := by
    rw [Compiled.found, none_left, List.flatMap_nil]
  have clear : MatchMode.line.malformed content = [] := by
    rw [MatchMode.malformed, none_left, List.flatMap_nil]
  rw [nothing, clear, List.head?_nil, ite_self]
  rfl

/-- Blanks at the ends and within a placeholder are no obstacle, nor is a stray delimiter. -/
theorem modes_agree_on_single_lines_padded :
    let content := "\t No {%No  of%} of {%All%} %\x7d ".toList
    let text := " No 3 of 12 %\x7d\n".toList
    let repository : Repository :=
      { files := MemoryFiles.empty.fileSystem, scoring := fun _ _ => .zero, mode := .line }
    let extractor : Extractor := { repository, mode := .whole, strict := false, timeLimit := none }
    ∃ extraction,
      (extractor.extractText .never text content none "form").outcome = .ok (some extraction) ∧
      (extractor.extractText .never text content (some .line) "form").outcome =
        .ok (some extraction) ∧
      extraction.values.get? "No  of".toList = some "3".toList := by
  intro content text repository extractor
  have found : Compiled.found .whole content (MatchMode.whole.normalize text) =
      [("No  of".toList, "3".toList), ("All".toList, "12".toList)] := by
    decide +kernel
  have answer : (extractor.extractText .never text content none "form").outcome = .ok (some
      ⟨.report .empty [("No  of".toList, "3".toList), ("All".toList, "12".toList)], "form"⟩) := by
    have answers := @Extractor.outcome_extractText_lenient extractor rfl rfl text content none "form"
    rwa [show (none : Option MatchMode).getD extractor.mode = .whole from rfl, found] at answers
  have unbroken : ∀ c ∈ content, (!Text.isLineBreak c) = true := List.all_eq_true.mp (by decide +kernel)
  have agrees := (modes_agree_on_single_lines extractor none (some .line) content text "form" rfl rfl
    rfl (by simpa using unbroken) (by decide +kernel) (by decide +kernel)).1
  exact ⟨_, answer, agrees.symm.trans answer, by decide +kernel⟩

end Stencil
