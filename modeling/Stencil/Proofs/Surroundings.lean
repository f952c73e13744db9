import Stencil.Files.Memory
import Stencil.Proofs.Extracting
import Stencil.Proofs.Respacing
import Stencil.Proofs.Rows

/-! Text around a text that a template fits.

What is searched for in a text is there in every longer text: levelling the longer one keeps the
levelled shorter one as a stretch of it, since that begins and ends with no blank. The values may
differ, as gaps take in what is added; that there is a match does not.
-/

set_option autoImplicit false

namespace Stencil

namespace Text

/-! ## Stretches of a text -/

/-- A stretch of a text is not trimmed off when a visible character stands at its ends or beyond. -/
theorem infix_trim {before part behind : Text}
    (begins : (∃ c ∈ before, isBlank c = false) ∨ ∀ c ∈ part.head?, isBlank c = false)
    (ends : (∃ c ∈ behind, isBlank c = false) ∨ ∀ c ∈ part.getLast?, isBlank c = false) :
    part <:+: (before ++ part ++ behind).trim := by
  by_cases nonempty : part = []
  · rw [nonempty]
    exact List.nil_infix
  obtain ⟨front, cut⟩ : ∃ front, (before ++ part ++ behind).trimStart = front ++ part ++ behind := by
    rw [List.append_assoc, trimStart_append]
    split
    · rename_i blank
      rw [trimStart_eq_nil_iff] at blank
      rcases begins with ⟨c, member, visible⟩ | begins
      · rw [blank c member] at visible
        exact absurd visible (by decide)
      · have first : (part ++ behind).head? = part.head? :=
          List.head?_append_of_ne_nil _ nonempty
        rw [trimStart_eq_self (by rwa [first])]
        exact ⟨[], rfl⟩
    · exact ⟨_, (List.append_assoc _ _ _).symm⟩
  rw [trim, cut, trimEnd_append]
  split
  · rename_i blank
    rw [trimEnd_eq_nil_iff] at blank
    rcases ends with ⟨c, member, visible⟩ | ends
    · rw [blank c member] at visible
      exact absurd visible (by decide)
    · have last : (front ++ part).getLast? = part.getLast? :=
        List.getLast?_append_of_ne_nil _ nonempty
      rw [trimEnd_eq_self (by rwa [last])]
      exact (List.suffix_append front part).isInfix
  · exact List.infix_append front part _

theorem trim_isInfix (text : Text) : text.trim <:+: text :=
  (trimEnd_prefix_self _).isInfix.trans (trimStart_suffix text).isInfix

theorem infix_trim_of_isInfix {part text : Text} (inside : part.trim <:+: text) :
    part.trim <:+: text.trim := by
  obtain ⟨before, behind, rfl⟩ := inside
  exact infix_trim (.inr fun _ => not_blank_of_head?_trim) (.inr fun _ => not_blank_of_getLast?_trim)

theorem InOrder.of_isInfix {literals : List Text} {part text : Text} (ordered : InOrder literals part)
    (inside : part <:+: text) : InOrder literals text := by
  obtain ⟨before, behind, rfl⟩ := inside
  exact (ordered.append_left before).append_right behind

theorem isInfix_of_mem_splitOn {row text : Text} (isRow : row ∈ text.splitOn '\n') :
    row <:+: text := by
  obtain ⟨above, below, rows⟩ := List.append_of_mem isRow
  obtain ⟨tail, joined, -⟩ := intercalate_split above row below
  rw [← rows, List.intercalate_splitOn] at joined
  exact ⟨rowsAbove above, tail, joined.symm⟩

theorem exists_row_of_isInfix {part text : Text} (unbroken : '\n' ∉ part) (inside : part <:+: text) :
    ∃ row ∈ text.splitOn '\n', part <:+: row := by
  obtain ⟨before, behind, rfl⟩ := inside
  induction before with
  | nil =>
    -- The stretch joins the first row of what stands behind it.
    obtain ⟨first, rest, split⟩ := List.exists_cons_of_ne_nil (List.splitOn_ne_nil '\n' behind)
    have joined : (part ++ behind).splitOn '\n' = (part ++ first) :: rest := by
      induction part with
      | nil => exact split
      | cons c part ih =>
        rw [List.mem_cons, not_or] at unbroken
        rw [List.cons_append, List.splitOn_cons_eq_if_modifyHead,
          if_neg (by simpa using Ne.symm unbroken.1), ih unbroken.2, List.modifyHead_cons,
          List.cons_append]
    rw [List.nil_append, joined]
    exact ⟨_, List.mem_cons_self, (List.prefix_append part first).isInfix⟩
  | cons c before ih =>
    obtain ⟨row, isRow, inside⟩ := ih
    rw [List.cons_append, List.cons_append, List.splitOn_cons_eq_if_modifyHead]
    split
    · exact ⟨row, List.mem_cons_of_mem _ isRow, inside⟩
    · obtain ⟨first, rest, rows⟩ :=
        List.exists_cons_of_ne_nil (List.splitOn_ne_nil '\n' (before ++ part ++ behind))
      rw [rows] at isRow ⊢
      rw [List.modifyHead_cons]
      rcases List.mem_cons.mp isRow with rfl | isRow
      · exact ⟨c :: row, List.mem_cons_self, inside.trans (List.suffix_cons c row).isInfix⟩
      · exact ⟨row, List.mem_cons_of_mem _ isRow, inside⟩

/-! ## Levelling a longer text -/

/-- Whether a blank comes last, in a text or in what stands before it. -/
def endsBlank (followsBlank : Bool) (text : Text) : Bool :=
  (text.getLast?.map isBlank).getD followsBlank

theorem endsBlank_cons (followsBlank : Bool) (c : Char) (text : Text) :
    endsBlank followsBlank (c :: text) = endsBlank (isBlank c) text := by
  cases text with
  | nil => rfl
  | cons d rest =>
    rw [endsBlank, endsBlank, List.getLast?_cons_cons, List.getLast?_eq_some_getLast (by simp)]
    rfl

theorem collapseAfter_append (followsBlank : Bool) (first second : Text) :
    collapseAfter followsBlank (first ++ second) =
      collapseAfter followsBlank first ++ collapseAfter (endsBlank followsBlank first) second := by
  induction first generalizing followsBlank with
  | nil => rfl
  | cons c rest ih =>
    rw [List.cons_append, endsBlank_cons]
    cases blank : isBlank c with
    | true =>
      simp only [collapseAfter, blank, if_true, ih]
      cases followsBlank <;> rfl
    | false =>
      simp only [collapseAfter, blank, Bool.false_eq_true, if_false, ih]
      rfl

/-- Whatever stands before a text, what it is levelled to stays. -/
theorem trim_collapse_isInfix (followsBlank : Bool) (text : Text) :
    (collapse text).trim <:+: collapseAfter followsBlank text := by
  cases followsBlank with
  | false => exact trim_isInfix _
  | true =>
    rw [trim, trimStart_collapse]
    exact (trimEnd_prefix_self _).isInfix

theorem normalize_isInfix (mode : MatchMode) (before text behind : Text) :
    mode.normalize text <:+: mode.normalize (before ++ text ++ behind) := by
  cases mode with
  | whole =>
    have levelled : collapse (before ++ text ++ behind) = _ :=
      (collapseAfter_append false (before ++ text) behind).trans
        (congrArg (· ++ _) (collapseAfter_append false before text))
    apply infix_trim_of_isInfix
    rw [levelled]
    exact (trim_collapse_isInfix _ text).trans (List.infix_append _ _ _)
  | line =>
    apply infix_trim_of_isInfix
    exact (trim_isInfix text).trans (List.infix_append before text behind)

end Text

/-! ## What is found -/

theorem Compiled.mem_distinct {name : Text} {names : List Text} :
    name ∈ distinct names ↔ name ∈ names := by
  induction names with
  | nil => rfl
  | cons first rest ih =>
    rw [distinct, List.mem_cons, List.mem_cons, List.mem_filter, ih]
    by_cases same : name = first <;> simp [same]

namespace Passage

variable {mode : MatchMode} {content text longer : Text} {passage : Passage}

theorem isSome_values?_of_isInfix (member : passage ∈ mode.passages content)
    (inside : text <:+: longer) (captured : (passage.values? mode text).isSome) :
    (passage.values? mode longer).isSome := by
  cases mode with
  | whole =>
    rw [isSome_values?_iff fun _ _ => rfl] at captured ⊢
    exact captured.of_isInfix inside
  | line =>
    rw [values?_isSome_iff_row member] at captured ⊢
    obtain ⟨row, isRow, ordered⟩ := captured
    obtain ⟨wider, isWider, within⟩ := Text.exists_row_of_isInfix
      (Text.not_mem_of_mem_splitOn isRow) ((Text.isInfix_of_mem_splitOn isRow).trans inside)
    exact ⟨wider, isWider, ordered.of_isInfix within⟩

theorem mem_map_fst_found {name : Text} :
    name ∈ (passage.found mode text).map Prod.fst ↔
      (passage.values? mode text).isSome ∧ name ∈ passage.names := by
  cases captured : passage.values? mode text with
  | none => simp [found, captured]
  | some values => simp [map_fst_found captured]

end Passage

namespace Compiled

variable (mode : MatchMode) (content : Text) {text longer : Text}

theorem mem_map_fst_found {name : Text} :
    name ∈ (found mode content text).map Prod.fst ↔
      ∃ passage ∈ mode.passages content, (passage.values? mode text).isSome ∧
        name ∈ passage.names := by
  simp only [found, List.map_flatMap, List.mem_flatMap, Passage.mem_map_fst_found]

theorem map_fst_found_subset (inside : text <:+: longer) :
    (found mode content text).map Prod.fst ⊆ (found mode content longer).map Prod.fst := by
  intro name member
  rw [mem_map_fst_found] at member ⊢
  obtain ⟨passage, isPassage, captured, named⟩ := member
  exact ⟨passage, isPassage, Passage.isSome_values?_of_isInfix isPassage inside captured, named⟩

theorem map_fst_found_whole {content : Text} (present : found .whole content text ≠ []) :
    (found .whole content text).map Prod.fst = (Passage.ofText content.trim).names := by
  rw [found_whole] at present ⊢
  cases captured : (Passage.ofText content.trim).values? .whole text with
  | none => simp [Passage.found, captured] at present
  | some values => exact Passage.map_fst_found captured

end Compiled

/-- Text around a text that a template fits takes no match away. Every name that got a value gets one
in the longer text, and in whole mode no other name does. -/
theorem surroundings_keep_match (extractor : Extractor) (mode : Option MatchMode)
    (content before text behind : Text) (source : String) (extraction : Extraction)
    (lenient : extractor.strict = false) (unlimited : extractor.timeLimit = none)
    (matched : (extractor.extractText extractor.timeLimit.cutoff text content mode source).outcome =
      .ok (some extraction)) :
    ∃ larger,
      (extractor.extractText extractor.timeLimit.cutoff (before ++ text ++ behind) content mode
        source).outcome = .ok (some larger) ∧
      (∀ name ∈ extraction.values.names, name ∈ larger.values.names) ∧
      (mode.getD extractor.mode = .whole → larger.values.names = extraction.values.names) := by
  have inside := Text.normalize_isInfix (mode.getD extractor.mode) before text behind
  have kept := Compiled.map_fst_found_subset (mode.getD extractor.mode) content inside
  rw [extractor.outcome_extractText_lenient lenient unlimited] at matched ⊢
  dsimp only at matched ⊢
  split at matched
  · exact absurd (Except.ok.inj matched) (by simp)
  · rename_i present
    cases matched
    rw [List.isEmpty_iff] at present
    -- Something is still found, since the names are.
    have present' : Compiled.found (mode.getD extractor.mode) content
        ((mode.getD extractor.mode).normalize (before ++ text ++ behind)) ≠ [] := by
      intro nothing
      rw [nothing] at kept
      exact present (List.map_eq_nil_iff.mp (List.subset_nil.mp kept))
    rw [if_neg (by simpa using present')]
    refine ⟨_, rfl, fun name named => ?_, fun whole => ?_⟩
    · rw [Bindings.names_report_empty, Compiled.mem_distinct] at named ⊢
      exact kept named
    · rw [Bindings.names_report_empty, Bindings.names_report_empty]
      rw [whole] at present present' ⊢
      rw [Compiled.map_fst_found_whole present, Compiled.map_fst_found_whole present']

/-- The row that fits is continued on both sides, and another line of the template fits the new row
above it. -/
theorem surroundings_keep_match_glued :
    let content := "k: {%X%}\n({%Y%})".toList
    let repository : Repository :=
      { files := MemoryFiles.empty.fileSystem, scoring := fun _ _ => .zero, mode := .whole }
    let extractor : Extractor := { repository, mode := .line, strict := false, timeLimit := none }
    (∃ extraction,
      (extractor.extractText .never "k: 1".toList content none "form").outcome =
        .ok (some extraction) ∧ extraction.values.names = ["X".toList]) ∧
    ∃ larger,
      (extractor.extractText .never "(a)\nk: 0, k: 12\n".toList content none "form").outcome =
        .ok (some larger) ∧ "X".toList ∈ larger.values.names := by
  intro content repository extractor
  let extraction : Extraction := ⟨.report .empty [("X".toList, "1".toList)], "form"⟩
  have fits : Compiled.found .line content (MatchMode.line.normalize "k: 1".toList) =
      [("X".toList, "1".toList)] := by decide +kernel
  have matched : (extractor.extractText .never "k: 1".toList content none "form").outcome =
      .ok (some extraction) := by
    have answer := extractor.outcome_extractText_lenient rfl rfl "k: 1".toList content none "form"
    simp only [Option.getD_none, extractor, fits] at answer
    exact answer
  have named : extraction.values.names = ["X".toList] := by decide +kernel
  obtain ⟨larger, found, kept, -⟩ := surroundings_keep_match extractor none content
    "(a)\nk: 0, ".toList "k: 1".toList "2\n".toList "form" extraction rfl rfl matched
  refine ⟨⟨extraction, matched, named⟩, larger, found, kept _ ?_⟩
  rw [named]
  exact List.mem_singleton_self _

end Stencil
