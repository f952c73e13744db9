import Stencil.Files.Memory
import Stencil.Proofs.Cleaning
import Stencil.Proofs.Extracting
import Stencil.Proofs.Grammar

/-! Blanks in whole mode.

A levelled text is its words with one space between them, so that texts with the same words are the
same text. A template is taken apart before its literals are levelled. For blanks to decide nothing
there, replacing them must neither make nor break a placeholder; it could make one only of a stray
delimiter, which strict compilation does not accept.
-/

set_option autoImplicit false

namespace Stencil

/-! ## Words -/

namespace Text

/-- The stretches of a text between its blanks. -/
def words (text : Text) : List Text :=
  (text.splitOnP isBlank).filter (!·.isEmpty)

theorem words_append_blank {c : Char} (blank : isBlank c = true) (before behind : Text) :
    words (before ++ c :: behind) = words before ++ words behind := by
  simp only [words, List.splitOnP_append_cons before behind blank, List.filter_append]

theorem words_cons_blank {c : Char} (blank : isBlank c = true) (behind : Text) :
    words (c :: behind) = words behind :=
  words_append_blank blank [] behind

theorem words_of_letters {word : Text} (nonempty : word ≠ [])
    (letters : ∀ c ∈ word, isBlank c = false) : words word = [word] := by
  rw [words, List.splitOnP_eq_singleton (by simpa using letters)]
  simp [nonempty]

theorem nonempty_of_mem_words {text word : Text} (member : word ∈ words text) : word ≠ [] := by
  simpa using (List.mem_filter.mp member).2

theorem not_blank_of_head?_collapseAfter {text : Text} {c : Char}
    (first : c ∈ (collapseAfter true text).head?) : isBlank c = false := by
  induction text with
  | nil => simp [collapseAfter] at first
  | cons d rest ih =>
    rw [collapseAfter] at first
    by_cases blank : isBlank d = true
    · rw [if_pos blank, if_pos rfl] at first
      exact ih first
    · rw [if_neg blank] at first
      cases first
      simpa using blank

theorem trimStart_collapse (text : Text) : (collapse text).trimStart = collapseAfter true text := by
  have kept : (collapseAfter true text).trimStart = collapseAfter true text :=
    trimStart_eq_self fun _ => not_blank_of_head?_collapseAfter
  cases text with
  | nil => rfl
  | cons c rest =>
    by_cases blank : isBlank c = true
    · simp only [collapse, collapseAfter, if_pos blank, Bool.false_eq_true, if_false, if_true]
        at kept ⊢
      rw [trimStart, List.dropWhile_cons_of_pos isBlank_space]
      exact kept
    · simp only [collapse, collapseAfter, if_neg blank] at kept ⊢
      exact kept

theorem trimEnd_collapseAfter (text : Text) :
    trimEnd (collapseAfter true text) = [' '].intercalate (words text) ∧
    ∀ word : Text, word ≠ [] → (∀ c ∈ word, isBlank c = false) →
      trimEnd (word ++ collapseAfter false text) = [' '].intercalate (words (word ++ text)) := by
  induction text with
  | nil =>
    refine ⟨rfl, fun word nonempty letters => ?_⟩
    rw [collapseAfter, List.append_nil, words_of_letters nonempty letters,
      List.intercalate_singleton]
    exact trimEnd_eq_self fun c last => letters c (List.mem_of_getLast? last)
  | cons c rest ih =>
    obtain ⟨behindBlank, behindWord⟩ := ih
    by_cases blank : isBlank c = true
    · simp only [collapseAfter, if_pos blank, if_true, Bool.false_eq_true, if_false]
      refine ⟨by rw [words_cons_blank blank, behindBlank], fun word nonempty letters => ?_⟩
      have unspaced : word.trimEnd = word :=
        trimEnd_eq_self fun c last => letters c (List.mem_of_getLast? last)
      have spaced := trimEnd_append [' '] (collapseAfter true rest)
      rw [behindBlank] at spaced
      rw [words_append_blank blank, words_of_letters nonempty letters, trimEnd_append,
        ← List.singleton_append, spaced]
      cases later : words rest with
      | nil =>
        have lost : trimEnd [' '] = [] := by decide
        rw [List.intercalate_nil, if_pos rfl, if_pos lost, unspaced, List.append_nil,
          List.intercalate_singleton]
      | cons next others =>
        have visible := nonempty_of_mem_words (later ▸ List.mem_cons_self : next ∈ words rest)
        have some_left : [' '].intercalate (next :: others) ≠ [] := by
          cases others <;> simp [visible]
        rw [if_neg some_left, if_neg (by simp)]
        show _ = [' '].intercalate (word :: next :: others)
        rw [List.intercalate_cons_cons, List.append_assoc]
    · have visible : isBlank c = false := by simpa using blank
      simp only [collapseAfter, if_neg blank]
      refine ⟨behindWord [c] (by simp) (by simpa using visible), fun word nonempty letters => ?_⟩
      have longer := behindWord (word ++ [c]) (by simp)
        (List.forall_mem_append.mpr ⟨letters, by simpa using visible⟩)
      simpa only [List.append_assoc, List.singleton_append] using longer

theorem normalize_whole (text : Text) :
    MatchMode.whole.normalize text = [' '].intercalate text.words := by
  show trimEnd (trimStart (collapse text)) = _
  rw [trimStart_collapse, (trimEnd_collapseAfter text).1]

end Text

/-! ## Respaced templates -/

/-- Two texts that differ in their blanks only: each run of blanks outside the placeholders of the
first is replaced by a run of blanks. -/
inductive Respaced : Text → Text → Prop where
  | nil : Respaced [] []
  | placeholder {rest rest' : Text} (spelling : Placeholder.Spelling) :
      Respaced rest rest' → Respaced (spelling.text ++ rest) (spelling.text ++ rest')
  | letter {c : Char} {rest rest' : Text} :
      Text.isBlank c = false → Placeholder.read? (c :: rest) = none →
      Respaced rest rest' → Respaced (c :: rest) (c :: rest')
  | run {blanks blanks' rest rest' : Text} :
      blanks ≠ [] → blanks' ≠ [] → (∀ c ∈ blanks, Text.isBlank c = true) →
      (∀ c ∈ blanks', Text.isBlank c = true) →
      Respaced rest rest' → Respaced (blanks ++ rest) (blanks' ++ rest')

theorem Text.collapseAfter_blanks {blanks : Text} (nonempty : blanks ≠ [])
    (blank : ∀ c ∈ blanks, isBlank c = true) (followsBlank : Bool) (rest : Text) :
    collapseAfter followsBlank (blanks ++ rest) =
      if followsBlank then collapseAfter true rest else ' ' :: collapseAfter true rest := by
  induction blanks generalizing followsBlank with
  | nil => exact absurd rfl nonempty
  | cons c blanks ih =>
    obtain ⟨here, later⟩ := List.forall_mem_cons.mp blank
    rw [List.cons_append, collapseAfter, if_pos here]
    by_cases more : blanks = []
    · rw [more, List.nil_append]
    · rw [ih more later, if_pos rfl]

theorem Placeholder.opens_of_read? {c : Char} {rest : Text} {found : Text × Text}
    (read : read? (c :: rest) = some found) : c = '{' ∧ rest.head? = some '%' := by
  obtain ⟨spelling, -, written⟩ := exists_spelling_of_read? read
  simp only [Spelling.text, List.cons_append, List.nil_append, List.cons.injEq] at written
  obtain ⟨rfl, rfl⟩ := written
  exact ⟨rfl, rfl⟩

theorem Placeholder.read?_of_not_opens {c : Char} {rest : Text}
    (closed : ¬ (c = '{' ∧ rest.head? = some '%')) : read? (c :: rest) = none := by
  by_contra found
  obtain ⟨found, read⟩ := Option.ne_none_iff_exists'.mp found
  exact closed (opens_of_read? read)

theorem Passage.ofText_blanks {blanks : Text} (blank : ∀ c ∈ blanks, Text.isBlank c = true)
    (rest : Text) :
    ofText (blanks ++ rest) = ⟨blanks ++ (ofText rest).lead, (ofText rest).slots⟩ := by
  induction blanks with
  | nil => rfl
  | cons c blanks ih =>
    obtain ⟨here, later⟩ := List.forall_mem_cons.mp blank
    have unread : Placeholder.read? (c :: (blanks ++ rest)) = none := by
      apply Placeholder.read?_of_not_opens
      rintro ⟨rfl, -⟩
      exact absurd here (by decide)
    rw [List.cons_append, ofText_letter unread, ih later]
    rfl

theorem delimiterFree_cons {c : Char} {literal : Text} :
    DelimiterFree (c :: literal) ↔
      ¬ (c = '{' ∧ literal.head? = some '%') ∧ ¬ (c = '%' ∧ literal.head? = some '}') ∧
        DelimiterFree literal := by
  have begins (first second : Char) :
      [first, second] <+: c :: literal ↔ c = first ∧ literal.head? = some second := by
    rw [List.cons_prefix_cons, eq_comm]
    cases literal with
    | nil => simp
    | cons d rest => simp [List.cons_prefix_cons, eq_comm]
  unfold DelimiterFree
  rw [List.infix_cons_iff, List.infix_cons_iff, begins, begins]
  tauto

theorem Text.head?_collapseAfter {literal : Text} {d : Char} (visible : isBlank d = false) :
    (collapseAfter false literal).head? = some d ↔ literal.head? = some d := by
  have space : ' ' ≠ d := by
    rintro rfl
    exact absurd visible (by decide)
  cases literal with
  | nil => simp [collapseAfter]
  | cons c rest =>
    by_cases blank : isBlank c = true
    · have other : c ≠ d := by
        rintro rfl
        rw [visible] at blank
        exact absurd blank (by decide)
      simp [collapseAfter, blank, space, other]
    · simp [collapseAfter, blank]

theorem delimiterFree_blank_cons {c : Char} {literal : Text} (blank : Text.isBlank c = true) :
    DelimiterFree (c :: literal) ↔ DelimiterFree literal := by
  have outside : c ≠ '{' ∧ c ≠ '%' := by
    constructor <;> rintro rfl <;> exact absurd blank (by decide)
  simp [delimiterFree_cons, outside]

theorem DelimiterFree.of_append {front literal : Text} (free : DelimiterFree (front ++ literal)) :
    DelimiterFree literal :=
  ⟨fun opened => free.1 (opened.trans (List.suffix_append front literal).isInfix),
    fun closed => free.2 (closed.trans (List.suffix_append front literal).isInfix)⟩

/-- No delimiter spans a blank, so that levelling neither makes nor breaks one. -/
theorem delimiterFree_collapseAfter {literal : Text} (followsBlank : Bool) :
    DelimiterFree (Text.collapseAfter followsBlank literal) ↔ DelimiterFree literal := by
  induction literal generalizing followsBlank with
  | nil => cases followsBlank <;> rfl
  | cons c rest ih =>
    by_cases blank : Text.isBlank c = true
    · rw [Text.collapseAfter, if_pos blank, delimiterFree_blank_cons blank]
      cases followsBlank with
      | true => exact ih true
      | false => exact (delimiterFree_blank_cons Text.isBlank_space).trans (ih true)
    · rw [Text.collapseAfter, if_neg blank, delimiterFree_cons, delimiterFree_cons, ih,
        Text.head?_collapseAfter (by decide), Text.head?_collapseAfter (by decide)]

namespace Respaced

variable {text text' : Text}

theorem head?_eq (respaced : Respaced text text') {d : Char} (visible : Text.isBlank d = false)
    (first : text'.head? = some d) : text.head? = some d := by
  cases respaced with
  | nil => exact first
  | placeholder spelling => exact first
  | letter => exact first
  | @run blanks blanks' _ _ _ nonempty' _ blank' _ =>
    obtain ⟨c, blanks', rfl⟩ := List.exists_cons_of_ne_nil nonempty'
    cases first
    have blank := blank' d List.mem_cons_self
    rw [visible] at blank
    exact absurd blank (by decide)

/-- A respaced text is taken apart into the same placeholders and the same literals, once they are
levelled. -/
theorem ofText_levelled (respaced : Respaced text text')
    (free : ∀ literal ∈ (Passage.ofText text).literals, DelimiterFree literal) :
    (∀ followsBlank, Text.collapseAfter followsBlank (Passage.ofText text').lead =
      Text.collapseAfter followsBlank (Passage.ofText text).lead) ∧
    (Passage.ofText text').slots.map (fun slot => (slot.name, Text.collapse slot.after)) =
      (Passage.ofText text).slots.map fun slot => (slot.name, Text.collapse slot.after) := by
  -- The lead is carried behind a blank and behind a letter, since a run in front of it leaves one space
  -- or nothing.
  induction respaced with
  | nil => exact ⟨fun _ => rfl, rfl⟩
  | @placeholder rest rest' spelling _ ih =>
    rw [Passage.ofText_placeholder (Placeholder.read?_text spelling rest)] at free ⊢
    rw [Passage.ofText_placeholder (Placeholder.read?_text spelling rest')]
    obtain ⟨lead, slots⟩ := ih (List.forall_mem_cons.mp free).2
    refine ⟨fun _ => rfl, ?_⟩
    rw [List.map_cons, List.map_cons, slots, Text.collapse, lead false, Text.collapse]
  | @letter c rest rest' visible unread respaced ih =>
    rw [Passage.ofText_letter unread] at free ⊢
    obtain ⟨here, later⟩ := List.forall_mem_cons.mp free
    obtain ⟨notOpened, -, freeRest⟩ := delimiterFree_cons.mp here
    -- Neighbours that are no blanks stay neighbours, so that an opening here was a stray one there.
    have unread' : Placeholder.read? (c :: rest') = none := by
      apply Placeholder.read?_of_not_opens
      rintro ⟨rfl, first⟩
      obtain ⟨behind, rfl⟩ := List.head?_eq_some_iff.mp (respaced.head?_eq (by decide) first)
      have percent : Placeholder.read? ('%' :: behind) = none :=
        Placeholder.read?_of_not_opens (by simp)
      rw [Passage.ofText_letter percent] at notOpened
      exact notOpened ⟨rfl, rfl⟩
    rw [Passage.ofText_letter unread']
    obtain ⟨lead, slots⟩ := ih (List.forall_mem_cons.mpr ⟨freeRest, later⟩)
    refine ⟨fun followsBlank => ?_, slots⟩
    simp only [Passage.push, Text.collapseAfter, visible, Bool.false_eq_true, if_false, lead false]
  | @run blanks blanks' rest rest' nonempty nonempty' blank blank' _ ih =>
    rw [Passage.ofText_blanks blank] at free ⊢
    rw [Passage.ofText_blanks blank']
    obtain ⟨here, later⟩ := List.forall_mem_cons.mp free
    obtain ⟨lead, slots⟩ := ih (List.forall_mem_cons.mpr ⟨here.of_append, later⟩)
    refine ⟨fun followsBlank => ?_, slots⟩
    rw [Text.collapseAfter_blanks nonempty blank, Text.collapseAfter_blanks nonempty' blank',
      lead true]

theorem names_eq (respaced : Respaced text text')
    (free : ∀ literal ∈ (Passage.ofText text).literals, DelimiterFree literal) :
    (Passage.ofText text').names = (Passage.ofText text).names := by
  obtain ⟨-, slots⟩ := respaced.ofText_levelled free
  simpa only [Passage.names, List.map_map, Function.comp_def] using
    congrArg (List.map Prod.fst) slots

theorem pieces_eq (respaced : Respaced text text')
    (free : ∀ literal ∈ (Passage.ofText text).literals, DelimiterFree literal) :
    (Passage.ofText text').pieces .whole = (Passage.ofText text).pieces .whole := by
  obtain ⟨lead, slots⟩ := respaced.ofText_levelled free
  rw [Passage.pieces_eq, Passage.pieces_eq]
  congr 1
  · exact lead false
  · simpa only [MatchMode.level, List.map_map, Function.comp_def] using
      congrArg (List.map Prod.snd) slots

end Respaced

/-! ## Compiling and extracting -/

theorem Passage.pattern_congr {mode : MatchMode} {first second : Passage}
    (same : first.pieces mode = second.pieces mode) : first.pattern mode = second.pattern mode := by
  rw [pieces_eq, pieces_eq] at same
  obtain ⟨lead, later⟩ := List.cons.inj same
  rw [pattern_eq, pattern_eq, lead, later]

theorem Passage.forall_delimiterFree_pieces {passage : Passage} :
    (∀ piece ∈ passage.pieces .whole, DelimiterFree piece) ↔
      ∀ literal ∈ passage.literals, DelimiterFree literal := by
  rw [pieces, List.forall_mem_map]
  exact forall₂_congr fun literal _ => delimiterFree_collapseAfter false

theorem malformed_whole_eq_nil_iff {content : Text} :
    MatchMode.whole.malformed content = [] ↔
      ∀ literal ∈ (Passage.ofText content.trim).literals, DelimiterFree literal := by
  rw [malformed_eq_nil_iff, MatchMode.units, List.forall_mem_singleton, exists_rendering_iff]

namespace Compiled

theorem ofTemplate_whole (content : Text) :
    ofTemplate .whole content =
      ⟨.whole, [(Passage.ofText content.trim).pattern .whole],
        [(Passage.ofText content.trim).names]⟩ := rfl

end Compiled

/-- Blanks decide nothing in whole mode. A template that strict compilation accepts, and the same
template with other runs of blanks outside its placeholders and other blanks at its ends, compile to
the same patterns. Texts with the same words are the same once they are levelled, namely the words
with one space between them. So both templates yield the same values, in the same order, from both
texts. -/
theorem respaced_templates_agree (extractor : Extractor) (mode : Option MatchMode)
    (content content' text text' : Text) (label source : String) (compiled : Compiled)
    (unlimited : extractor.timeLimit = none) (whole : mode.getD extractor.mode = .whole)
    (accepted : (Compiled.compile .whole true label content).outcome = .ok compiled)
    (respaced : Respaced content.trim content'.trim) (words : text.words = text'.words) :
    (∀ strict,
      (Compiled.compile .whole strict label content).outcome = .ok compiled ∧
      (Compiled.compile .whole strict label content').outcome = .ok compiled) ∧
    MatchMode.whole.normalize text = [' '].intercalate text.words ∧
    MatchMode.whole.normalize text' = MatchMode.whole.normalize text ∧
    ∃ result,
      (extractor.extractText extractor.timeLimit.cutoff text content mode source).outcome =
        .ok result ∧
      (extractor.extractText extractor.timeLimit.cutoff text' content' mode source).outcome =
        .ok result := by
  have same : MatchMode.whole.normalize text' = MatchMode.whole.normalize text := by
    rw [Text.normalize_whole, Text.normalize_whole, words]
  have clear : MatchMode.whole.malformed content = [] := by
    rcases Compiled.compile_cases .whole true label content with ⟨_, _, -, -, failed⟩ | ⟨clear, -⟩
    · rw [failed] at accepted
      exact absurd accepted (by simp)
    · exact clear rfl
  have free := malformed_whole_eq_nil_iff.mp clear
  have pieces := respaced.pieces_eq free
  have clear' : MatchMode.whole.malformed content' = [] := by
    rw [malformed_whole_eq_nil_iff, ← Passage.forall_delimiterFree_pieces, pieces]
    exact Passage.forall_delimiterFree_pieces.mpr free
  have patterns : Compiled.ofTemplate .whole content' = Compiled.ofTemplate .whole content := by
    rw [Compiled.ofTemplate_whole, Compiled.ofTemplate_whole, respaced.names_eq free,
      Passage.pattern_congr pieces]
  have compiles := Compiled.outcome_compile_of_malformed_nil clear
  have compiles' := Compiled.outcome_compile_of_malformed_nil clear'
  rw [patterns] at compiles'
  cases Compiled.eq_ofTemplate_of_compile accepted
  refine ⟨fun strict => ⟨compiles strict label, compiles' strict label⟩,
    Text.normalize_whole text, same, ?_⟩
  have never : extractor.timeLimit.cutoff = .never := by
    rw [unlimited]
    rfl
  simp only [Extractor.outcome_extractText, whole, compiles, compiles', never, same,
    Compiled.extract_ofTemplate, and_self]
  exact ⟨_, rfl⟩

/-- A line break, a tab and wide spaces against plain spaces, within a template and at its ends. -/
theorem respaced_templates_agree_wide :
    let content := "\n No\n{% X %} of\t".toList
    let content' := "No \t{% X %}\u3000\u3000of".toList
    let text := "No 1  2\u2003of".toList
    let text' := "\nNo\n1\t2 of ".toList
    let repository : Repository :=
      { files := MemoryFiles.empty.fileSystem, scoring := fun _ _ => .zero, mode := .line }
    let extractor : Extractor := { repository, mode := .whole, strict := true, timeLimit := none }
    Text.words text = Text.words text' ∧
    ∃ compiled result,
      (Compiled.compile .whole false "form" content').outcome = .ok compiled ∧
      (extractor.extractText .never text content none "form").outcome = .ok result ∧
      (extractor.extractText .never text' content' none "form").outcome = .ok result := by
  intro content content' text text' repository extractor
  let spelling : Placeholder.Spelling :=
    ⟨[' '], ['X'], [' '], by simp, by simp, ⟨by simp, by simp, by rintro _ ⟨⟩; decide, by simp⟩⟩
  have cut : Text.trim content =
      'N' :: 'o' :: (['\n'] ++ (spelling.text ++ ([' '] ++ ['o', 'f']))) := by decide +kernel
  have cut' : Text.trim content' =
      'N' :: 'o' :: ([' ', '\t'] ++ (spelling.text ++ (['\u3000', '\u3000'] ++ ['o', 'f']))) := by
    decide +kernel
  have ends : Respaced ['o', 'f'] ['o', 'f'] :=
    .letter (by decide) (by decide) (.letter (by decide) (by decide) .nil)
  have respaced : Respaced (Text.trim content) (Text.trim content') := by
    rw [cut, cut']
    apply Respaced.letter (by decide) (by decide)
    apply Respaced.letter (by decide) (by decide)
    apply Respaced.run (by simp) (by simp)
    · exact List.all_eq_true.mp (by decide)
    · exact List.all_eq_true.mp (by decide)
    apply Respaced.placeholder
    apply Respaced.run (by simp) (by simp)
    · exact List.all_eq_true.mp (by decide)
    · exact List.all_eq_true.mp (by decide)
    exact ends
  have same : Text.words text = Text.words text' := by decide +kernel
  have clear : MatchMode.whole.malformed content = [] := by decide +kernel
  obtain ⟨compiles, -, -, result, answer, answer'⟩ :=
    respaced_templates_agree extractor none content content' text text' "form" "form" _ rfl rfl
      (Compiled.outcome_compile_of_malformed_nil clear true "form") respaced same
  exact ⟨same, _, result, (compiles false).2, answer, answer'⟩

end Stencil
