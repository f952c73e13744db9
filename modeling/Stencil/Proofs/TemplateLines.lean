import Stencil.Proofs.Rows

/-! Templates put together line by line.

A line feed between two templates ends the last line of the first, or stands for a line of its own
that is blank and therefore not searched for. The units of the whole are the units of its parts, one
after the other, and so are its passages, its warnings and its patterns. What is found adds up in the
same order, so that the bindings of the second template update those of the first. Where no two lines
share a name, the order of lines matters for the order of names only.
-/

set_option autoImplicit false

namespace Stencil

namespace Text

theorem lines_eq_nil_iff {text : Text} : lines text = [] ↔ text = [] := by
  cases text using lines.induct with
  | case1 => simp [lines]
  | case2 rest => simp [lines]
  | case3 c rest notPair ends => simp [lines.eq_3 _ _ notPair, ends]
  | case4 c rest notPair inside empty => simp [lines.eq_3 _ _ notPair, inside, empty]
  | case5 c rest notPair inside line later nonempty =>
    simp [lines.eq_3 _ _ notPair, inside, nonempty]

theorem lines_letter_cons {c : Char} (letter : isLineBreak c = false) (rest : Text) :
    lines (c :: rest) =
      match lines rest with
      | [] => [[c]]
      | line :: later => (c :: line) :: later := by
  have plain : c ≠ '\r' := by
    rintro rfl
    exact absurd letter (by decide)
  have unfolded := lines.eq_3 c rest fun _ same => absurd same plain
  rw [if_neg (by simp [letter])] at unfolded
  exact unfolded.trans (by cases lines rest <;> rfl)

/-- A line feed after a text ends its last line, unless that line has been ended: by a break, after
which the line feed ends one more line, which is empty. -/
theorem lines_append (first second : Text) :
    lines (first ++ '\n' :: second) = lines first ++ lines second ∨
      lines (first ++ '\n' :: second) = lines first ++ [] :: lines second := by
  have feed : lines ('\n' :: second) = [] :: lines second := by
    rw [lines.eq_3 _ _ (by simp), if_pos (by decide)]
  induction first using lines.induct with
  | case1 => exact .inr feed
  | case2 rest ih =>
    simp only [List.cons_append, lines]
    exact ih.imp (congrArg _) (congrArg _)
  | case3 c rest notPair ends ih =>
    rw [lines.eq_3 _ _ notPair, if_pos ends, List.cons_append]
    by_cases pair : c = '\r' ∧ rest = []
    · -- The carriage return takes the line feed with it.
      obtain ⟨rfl, rfl⟩ := pair
      exact .inl rfl
    · rw [lines.eq_3, if_pos ends]
      · exact ih.imp (congrArg _) (congrArg _)
      · rintro after rfl feeds
        cases rest with
        | nil => exact pair ⟨rfl, rfl⟩
        | cons d rest => exact notPair rest rfl (by rw [(List.cons.inj feeds).1])
  | case4 c rest _ inside empty _ =>
    -- The line feed ends the line of a single letter.
    have letter : isLineBreak c = false := by simpa using inside
    cases lines_eq_nil_iff.mp empty
    left
    rw [List.cons_append, List.nil_append, lines_letter_cons letter, lines_letter_cons letter, feed]
    rfl
  | case5 c rest _ inside line later nonempty ih =>
    have letter : isLineBreak c = false := by simpa using inside
    rw [nonempty] at ih
    rw [List.cons_append, lines_letter_cons letter, lines_letter_cons letter, nonempty]
    rcases ih with glued | apart
    · rw [glued]
      exact .inl rfl
    · rw [apart]
      exact .inr rfl

theorem lines_of_unbroken {line : Text} (unbroken : ∀ c ∈ line, isLineBreak c = false) :
    lines line = if line.isEmpty then [] else [line] := by
  induction line with
  | nil => rfl
  | cons c line ih =>
    obtain ⟨here, later⟩ := List.forall_mem_cons.mp unbroken
    rw [lines_letter_cons here, ih later]
    cases line <;> rfl

end Text

/-! ## Units, passages and patterns of the whole -/

namespace MatchMode

theorem units_append (first second : Text) :
    line.units (first ++ '\n' :: second) = line.units first ++ line.units second := by
  unfold units
  rcases Text.lines_append first second with glued | apart
  · rw [glued, List.map_append, List.filter_append]
  · -- An empty line is not searched for.
    rw [apart, List.map_append, List.map_cons, List.filter_append]
    rfl

theorem units_intercalate {lines : List Text}
    (unbroken : ∀ line ∈ lines, ∀ c ∈ line, Text.isLineBreak c = false) :
    line.units (['\n'].intercalate lines) = (lines.map Text.trim).filter (!·.isEmpty) := by
  induction lines with
  | nil => rfl
  | cons first rest ih =>
    obtain ⟨here, later⟩ := List.forall_mem_cons.mp unbroken
    have alone : line.units first = ([first].map Text.trim).filter (!·.isEmpty) := by
      rw [units, Text.lines_of_unbroken here]
      cases first <;> rfl
    cases rest with
    | nil => rw [List.intercalate_singleton, alone]
    | cons next rest =>
      rw [List.intercalate_cons_cons, List.append_assoc, List.singleton_append, units_append,
        ih later, alone, ← List.filter_append, ← List.map_append, List.singleton_append]

theorem passages_append (first second : Text) :
    line.passages (first ++ '\n' :: second) = line.passages first ++ line.passages second := by
  rw [passages, units_append, List.map_append]
  rfl

theorem malformed_append (first second : Text) :
    line.malformed (first ++ '\n' :: second) = line.malformed first ++ line.malformed second := by
  rw [malformed, passages_append, List.flatMap_append]
  rfl

theorem passages_perm {content : Text} {shuffled : List Text}
    (perm : shuffled.Perm content.lines) :
    (line.passages (['\n'].intercalate shuffled)).Perm (line.passages content) := by
  have unbroken : ∀ line ∈ shuffled, ∀ c ∈ line, Text.isLineBreak c = false :=
    fun line member _ letter => Text.not_lineBreak_of_mem_lines (perm.mem_iff.mp member) letter
  rw [passages, units_intercalate unbroken]
  exact ((perm.map Text.trim).filter _).map Passage.ofText

end MatchMode

namespace Compiled

theorem ofTemplate_append (first second : Text) :
    ofTemplate .line (first ++ '\n' :: second) =
      ⟨.line, (ofTemplate .line first).patterns ++ (ofTemplate .line second).patterns,
        (ofTemplate .line first).names ++ (ofTemplate .line second).names⟩ := by
  simp only [ofTemplate, MatchMode.passages_append, List.map_append]

theorem outcome_compile_append (strict : Bool) (label : String) (first second : Text) :
    (compile .line strict label (first ++ '\n' :: second)).outcome =
      match (compile .line strict label first).outcome,
        (compile .line strict label second).outcome with
      | .error failure, _ => .error failure
      | .ok _, .error failure => .error failure
      | .ok one, .ok other =>
        .ok ⟨.line, one.patterns ++ other.patterns, one.names ++ other.names⟩ := by
  cases strict with
  | false =>
    simp only [outcome_compile_lenient, ofTemplate_append]
  | true =>
    simp only [outcome_compile_strict, MatchMode.malformed_append]
    cases MatchMode.line.malformed first with
    | cons fragment others => rfl
    | nil =>
      cases MatchMode.line.malformed second with
      | cons fragment others => rfl
      | nil => exact congrArg Except.ok (ofTemplate_append first second)

theorem warnings_compile (mode : MatchMode) (label : String) (content : Text) :
    (compile mode false label content).messages Level.warning.weight =
      (mode.malformed content).map fun fragment =>
        (.warning, malformedMessage label fragment ++ " will be matched literally") := by
  have passed : Level.warning.weight ≤ Level.warning.weight := Nat.le_refl _
  have held : ¬ Level.warning.weight ≤ Level.debug.weight := by decide
  unfold compile Traced.messages
  simp only [Bool.false_eq_true, if_false, List.filterMap_append, List.filterMap_map,
    compiledNote, List.filterMap_cons, if_neg held, List.filterMap_nil, List.append_nil]
  rw [← List.filterMap_eq_map]
  apply List.filterMap_congr
  intro fragment _
  simp only [Function.comp_apply, malformedWarning, if_pos passed]

theorem found_append (first second text : Text) :
    found .line (first ++ '\n' :: second) text = found .line first text ++ found .line second text := by
  rw [found, MatchMode.passages_append, List.flatMap_append]
  rfl

end Compiled

/-! ## What is found -/

theorem Passage.mem_names_of_lastUnder {mode : MatchMode} {text : Text} {passage : Passage}
    {name : Text} (bound : lastUnder (passage.found mode text) name ≠ none) :
    name ∈ passage.names := by
  obtain ⟨value, known⟩ := Option.ne_none_iff_exists'.mp bound
  have member := mem_of_lastUnder known
  unfold found at member
  split at member
  · exact (List.of_mem_zip member).1
  · exact absurd member List.not_mem_nil

theorem Passage.lastUnder_found_perm (mode : MatchMode) (text : Text)
    {passages shuffled : List Passage} (perm : shuffled.Perm passages)
    (apart : passages.Pairwise fun one other => List.Disjoint one.names other.names)
    (name : Text) :
    lastUnder (shuffled.flatMap (found mode text)) name =
      lastUnder (passages.flatMap (found mode text)) name := by
  induction perm with
  | nil => rfl
  | cons passage _ ih =>
    rw [List.flatMap_cons, List.flatMap_cons, lastUnder_append, lastUnder_append,
      ih (List.pairwise_cons.mp apart).2]
  | swap one other rest =>
    have disjoint := (List.pairwise_cons.mp apart).1 other List.mem_cons_self
    simp only [List.flatMap_cons, lastUnder_append, Option.or_assoc]
    congr 1
    -- At most one of the two binds the name.
    by_cases member : name ∈ one.names
    · have unbound : lastUnder (other.found mode text) name = none := by
        by_contra bound
        exact disjoint member (mem_names_of_lastUnder bound)
      rw [unbound, Option.none_or, Option.or_none]
    · have unbound : lastUnder (one.found mode text) name = none := by
        by_contra bound
        exact member (mem_names_of_lastUnder bound)
      rw [unbound, Option.none_or, Option.or_none]
  | trans _ second ih ih' =>
    rw [ih, ih' apart]
    exact (second.pairwise_iff fun disjoint => List.disjoint_comm.mp disjoint).mpr apart

/-- The bindings that were extracted: none when nothing was. -/
def Extraction.bound (result : Option Extraction) : Bindings :=
  (result.map Extraction.values).getD .empty

namespace Compiled

theorem extract_ofTemplate_bound (mode : MatchMode) (content text : Text) (source : String) :
    ∃ result, (ofTemplate mode content).extract .never source text = .ok result ∧
      Extraction.bound result = .report .empty (found mode content text) ∧
      (result = none ↔ found mode content text = []) ∧
      ∀ extraction, result = some extraction → extraction.source = source := by
  refine ⟨_, extract_ofTemplate mode content text source, ?_⟩
  cases found mode content text with
  | nil => exact ⟨rfl, by simp, by simp⟩
  | cons pair rest => exact ⟨rfl, by simp, by simp⟩

end Compiled

namespace Bindings

theorem report_empty_append (first later : List (Text × Text)) :
    empty.report (first ++ later) = (empty.report first).update (empty.report later) := by
  apply eq_of_names
  · rw [report_append, names_report, names_update, names_report_empty later]
  · intro name
    rw [report_append, get?_report, get?_update, get?_report empty later]
    congr 1
    exact Option.or_none.symm

end Bindings

/-- In line mode a template is the sum of its parts. Two templates with a line feed between them
compile to the patterns and names of the first and then those of the second, with the warnings of both
in this order; compiling stops where the first of them that is malformed stops it. What the whole
extracts from a text is what the first extracts, updated with what the second does. Where no name
stands on two lines of a template, its lines can be shuffled without changing what a name is bound
to. -/
theorem line_templates_compose (first second content text : Text) (label source : String) :
    let whole := first ++ '\n' :: second
    let compile := fun strict content => Compiled.compile .line strict label content
    let warnings := fun content => (compile false content).messages Level.warning.weight
    (∀ strict, (compile strict whole).outcome =
      match (compile strict first).outcome, (compile strict second).outcome with
      | .error failure, _ => .error failure
      | .ok _, .error failure => .error failure
      | .ok one, .ok other =>
        .ok ⟨.line, one.patterns ++ other.patterns, one.names ++ other.names⟩) ∧
    warnings whole = warnings first ++ warnings second ∧
    (∃ one other both earlier later result,
      (compile false first).outcome = .ok one ∧
      (compile false second).outcome = .ok other ∧
      (compile false whole).outcome = .ok both ∧
      one.extract .never source text = .ok earlier ∧
      other.extract .never source text = .ok later ∧
      both.extract .never source text = .ok result ∧
      (result = none ↔ earlier = none ∧ later = none) ∧
      (∀ extraction, result = some extraction → extraction.source = source) ∧
      Extraction.bound result = (Extraction.bound earlier).update (Extraction.bound later) ∧
      (Extraction.bound result).names = (Extraction.bound earlier).names ++
        (Extraction.bound later).names.filter
          (fun name => !(Extraction.bound earlier).names.contains name) ∧
      ∀ name, (Extraction.bound result).get? name =
        ((Extraction.bound later).get? name).or ((Extraction.bound earlier).get? name)) ∧
    ∀ shuffled : List Text, shuffled.Perm content.lines →
      ((MatchMode.line.passages content).Pairwise fun one other =>
        List.Disjoint one.names other.names) →
      ∃ ordered mixed result mixture,
        (compile false content).outcome = .ok ordered ∧
        (compile false (['\n'].intercalate shuffled)).outcome = .ok mixed ∧
        ordered.extract .never source text = .ok result ∧
        mixed.extract .never source text = .ok mixture ∧
        (mixture = none ↔ result = none) ∧
        ∀ name, (Extraction.bound mixture).get? name = (Extraction.bound result).get? name := by
  intro whole compile warnings
  refine ⟨fun strict => Compiled.outcome_compile_append strict label first second, ?_, ?_, ?_⟩
  · simp only [warnings, compile, whole, Compiled.warnings_compile, MatchMode.malformed_append,
      List.map_append]
  · obtain ⟨earlier, extracts, bound, nothing, -⟩ :=
      Compiled.extract_ofTemplate_bound .line first text source
    obtain ⟨later, extracts', bound', nothing', -⟩ :=
      Compiled.extract_ofTemplate_bound .line second text source
    obtain ⟨result, extracts'', bound'', nothing'', labelled⟩ :=
      Compiled.extract_ofTemplate_bound .line whole text source
    have updated : Extraction.bound result =
        (Extraction.bound earlier).update (Extraction.bound later) := by
      rw [bound'', Compiled.found_append, Bindings.report_empty_append, bound, bound']
    refine ⟨_, _, _, earlier, later, result, rfl, rfl, rfl, extracts, extracts', extracts'', ?_,
      labelled, updated, ?_, fun name => ?_⟩
    · rw [nothing'', nothing, nothing', Compiled.found_append, List.append_eq_nil_iff]
    · rw [updated, Bindings.names_update]
    · rw [updated, Bindings.get?_update]
  · intro shuffled perm apart
    have passages := MatchMode.passages_perm perm
    obtain ⟨result, extracts, bound, nothing, -⟩ :=
      Compiled.extract_ofTemplate_bound .line content text source
    obtain ⟨mixture, extracts', bound', nothing', -⟩ :=
      Compiled.extract_ofTemplate_bound .line (['\n'].intercalate shuffled) text source
    refine ⟨_, _, result, mixture, rfl, rfl, extracts, extracts', ?_, fun name => ?_⟩
    · have found := passages.flatMap_right (Passage.found .line text)
      rw [nothing, nothing', ← List.perm_nil, ← List.perm_nil]
      exact found.congr_left []
    · rw [bound, bound', Bindings.get?_report, Bindings.get?_report, Compiled.found,
        Compiled.found, Passage.lastUnder_found_perm .line text passages apart]

/-- The first line ends in a carriage return, which the line feed behind it does not double. -/
theorem line_templates_compose_shuffled :
    let first := "A: {%X%}\r".toList
    let second := "\nB: {%Y%} {%X2%}".toList
    let content := first ++ '\n' :: second
    let shuffled := ["B: {%Y%} {%X2%}".toList, [], "A: {%X%}".toList]
    let text := "A: 1\nB: 2 3".toList
    shuffled.Perm (Text.lines content) ∧
    ∃ mixed mixture,
      (Compiled.compile .line false "form" (['\n'].intercalate shuffled)).outcome = .ok mixed ∧
      mixed.extract .never "form" text = .ok mixture ∧
      (Extraction.bound mixture).get? "Y".toList = some "2".toList := by
  intro first second content shuffled text
  have perm : shuffled.Perm (Text.lines content) := by decide +kernel
  have passages : MatchMode.line.passages content =
      [⟨"A: ".toList, [⟨"X".toList, []⟩]⟩,
        ⟨"B: ".toList, [⟨"Y".toList, " ".toList⟩, ⟨"X2".toList, []⟩]⟩] := by decide +kernel
  have found : Compiled.found .line content text =
      [("X".toList, "1".toList), ("Y".toList, "2".toList), ("X2".toList, "3".toList)] := by
    decide +kernel
  obtain ⟨-, -, -, shuffles⟩ :=
    line_templates_compose first second content text "form" "form"
  obtain ⟨ordered, mixed, result, mixture, compiles, mixes, extracts, mixedExtracts, -, same⟩ :=
    shuffles shuffled perm (by rw [passages]; simp [Passage.names])
  refine ⟨perm, mixed, mixture, mixes, mixedExtracts, ?_⟩
  obtain ⟨_, extracts', bound, -⟩ := Compiled.extract_ofTemplate_bound .line content text "form"
  cases Except.ok.inj compiles
  cases Except.ok.inj (extracts.symm.trans extracts')
  rw [same, bound, found]
  decide +kernel

end Stencil
