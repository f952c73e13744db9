import Stencil.Proofs.Compilation

/-! The grammar of templates.

A rendering is literal text without delimiters, with written placeholders between its stretches. No
delimiter can straddle the border of a stretch, because placeholders begin with a brace and end with
one, so that reading from the left finds exactly the placeholders that were written. Strict
compilation accepts the renderings and nothing else.
-/

set_option autoImplicit false

namespace Stencil

/-- Literal text in which no placeholder is opened or closed. -/
def DelimiterFree (literal : Text) : Prop :=
  ¬ ['{', '%'] <:+: literal ∧ ¬ ['%', '}'] <:+: literal

/-- Literal text with written placeholders, each followed by literal text. -/
structure Rendering where
  lead : Text
  fields : List (Placeholder.Spelling × Text)
  lead_free : DelimiterFree lead
  fields_free : ∀ field ∈ fields, DelimiterFree field.2

namespace Rendering

def written (fields : List (Placeholder.Spelling × Text)) : Text :=
  fields.flatMap fun (spelling, after) => spelling.text ++ after

def text (rendering : Rendering) : Text :=
  rendering.lead ++ written rendering.fields

def names (rendering : Rendering) : List Text :=
  rendering.fields.map fun (spelling, _) => spelling.name

def literals (rendering : Rendering) : List Text :=
  rendering.lead :: rendering.fields.map Prod.snd

/-- The literals, levelled, around one gap for each placeholder. -/
def pattern (mode : MatchMode) (rendering : Rendering) : Pattern :=
  .literal (mode.level rendering.lead) ::
    rendering.fields.flatMap fun (_, after) => [.gap, .literal (mode.level after)]

def passage (rendering : Rendering) : Passage :=
  ⟨rendering.lead, rendering.fields.map fun (spelling, after) => ⟨spelling.name, after⟩⟩

end Rendering

/-! ## Delimiters -/

theorem DelimiterFree.tail {c : Char} {literal : Text} (free : DelimiterFree (c :: literal)) :
    DelimiterFree literal :=
  ⟨fun opened => free.1 (opened.trans (List.suffix_cons c literal).isInfix),
    fun closed => free.2 (closed.trans (List.suffix_cons c literal).isInfix)⟩

theorem delimiterFree_nil : DelimiterFree [] := by
  constructor <;> intro infix_nil <;> simp at infix_nil

theorem fromDelimiter?_eq_none_iff {literal : Text} :
    Placeholder.fromDelimiter? literal = none ↔ DelimiterFree literal := by
  induction literal using Placeholder.fromDelimiter?.induct with
  | case1 => simp [Placeholder.fromDelimiter?, delimiterFree_nil]
  | case2 rest =>
    simp only [Placeholder.fromDelimiter?, reduceCtorEq, false_iff]
    exact fun free => free.1 ⟨[], rest, rfl⟩
  | case3 rest =>
    simp only [Placeholder.fromDelimiter?, reduceCtorEq, false_iff]
    exact fun free => free.2 ⟨[], rest, rfl⟩
  | case4 c rest notOpened notClosed ih =>
    rw [Placeholder.fromDelimiter?, ih]
    · refine ⟨fun free => ⟨?_, ?_⟩, DelimiterFree.tail⟩
      · intro opened
        rcases List.infix_cons_iff.mp opened with here | later
        · obtain ⟨after, same⟩ := here
          cases same
          exact notOpened after rfl rfl
        · exact free.1 later
      · intro closed
        rcases List.infix_cons_iff.mp closed with here | later
        · obtain ⟨after, same⟩ := here
          cases same
          exact notClosed after rfl rfl
        · exact free.2 later
    · exact notOpened
    · exact notClosed

/-! ## Reading a rendering -/

namespace Passage

theorem ofText_literal {literal rest : Text} (free : DelimiterFree literal)
    (border : rest.head? ≠ some '%') :
    ofText (literal ++ rest) = ⟨literal ++ (ofText rest).lead, (ofText rest).slots⟩ := by
  induction literal with
  | nil => rfl
  | cons c literal ih =>
    have unread : Placeholder.read? (c :: (literal ++ rest)) = none := by
      by_contra found
      obtain ⟨⟨name, after⟩, found⟩ := Option.ne_none_iff_exists'.mp found
      obtain ⟨spelling, -, written⟩ := Placeholder.exists_spelling_of_read? found
      rw [Placeholder.Spelling.text] at written
      simp only [List.cons_append, List.nil_append, List.cons.injEq] at written
      obtain ⟨rfl, written⟩ := written
      -- The percent sign of an opening would have to stand in the literal or right behind it.
      cases literal with
      | nil => exact border (by rw [← List.nil_append rest, written]; rfl)
      | cons d literal =>
        obtain ⟨rfl, -⟩ := List.cons.inj written
        exact free.1 ⟨[], literal, rfl⟩
    rw [List.cons_append, ofText_letter unread, ih free.tail]
    rfl

theorem head?_written (fields : List (Placeholder.Spelling × Text)) :
    (Rendering.written fields).head? ≠ some '%' := by
  cases fields <;> simp [Rendering.written, Placeholder.Spelling.text]

theorem ofText_written {fields : List (Placeholder.Spelling × Text)}
    (free : ∀ field ∈ fields, DelimiterFree field.2) :
    ofText (Rendering.written fields) =
      ⟨[], fields.map fun (spelling, after) => ⟨spelling.name, after⟩⟩ := by
  induction fields with
  | nil => exact ofText_nil
  | cons field fields ih =>
    obtain ⟨spelling, after⟩ := field
    obtain ⟨here, later⟩ := List.forall_mem_cons.mp free
    have read := ofText_literal here (head?_written fields)
    rw [ih later, List.append_nil] at read
    rw [Rendering.written, List.flatMap_cons, List.append_assoc,
      ofText_placeholder (Placeholder.read?_text spelling _), ← Rendering.written, read]
    rfl

end Passage

namespace Rendering

/-- Reading a rendering gives back what was written. -/
theorem ofText_text (rendering : Rendering) : Passage.ofText rendering.text = rendering.passage := by
  rw [text, Passage.ofText_literal rendering.lead_free (Passage.head?_written _),
    Passage.ofText_written rendering.fields_free, List.append_nil, passage]

theorem names_passage (rendering : Rendering) : rendering.passage.names = rendering.names := by
  simp only [Passage.names, passage, names, List.map_map]
  rfl

theorem literals_passage (rendering : Rendering) :
    rendering.passage.literals = rendering.literals := by
  simp only [Passage.literals, passage, literals, List.map_map]
  rfl

theorem pattern_passage (mode : MatchMode) (rendering : Rendering) :
    rendering.passage.pattern mode = rendering.pattern mode := by
  simp only [Passage.pattern, passage, pattern, List.flatMap_map]

end Rendering

theorem Passage.exists_rendering {text : Text}
    (free : ∀ literal ∈ (ofText text).literals, DelimiterFree literal) :
    ∃ rendering : Rendering, rendering.text = text := by
  induction text using ofText.induct with
  | case1 => exact ⟨⟨[], [], delimiterFree_nil, by simp⟩, rfl⟩
  | case2 first rest name after found ih =>
    obtain ⟨spelling, -, written⟩ := Placeholder.exists_spelling_of_read? found
    rw [ofText_placeholder found] at free
    obtain ⟨⟨lead, fields, lead_free, fields_free⟩, rfl⟩ :=
      ih fun literal member => free literal (List.mem_cons_of_mem _ member)
    refine ⟨⟨[], (spelling, lead) :: fields, delimiterFree_nil, ?_⟩, ?_⟩
    · exact List.forall_mem_cons.mpr ⟨lead_free, fields_free⟩
    · rw [written]
      simp only [Rendering.text, Rendering.written, List.nil_append, List.flatMap_cons,
        List.append_assoc]
  | case3 first rest unread ih =>
    rw [ofText_letter unread] at free
    obtain ⟨lead_free, after_free⟩ := List.forall_mem_cons.mp free
    obtain ⟨rendering, rfl⟩ := ih (List.forall_mem_cons.mpr ⟨lead_free.tail, after_free⟩)
    rw [push, rendering.ofText_text] at lead_free
    exact ⟨{ rendering with lead := first :: rendering.lead, lead_free }, rfl⟩

/-- The renderings are the texts whose literals hold no delimiter. -/
theorem exists_rendering_iff {text : Text} :
    (∃ rendering : Rendering, rendering.text = text) ↔
      ∀ literal ∈ (Passage.ofText text).literals, DelimiterFree literal := by
  refine ⟨?_, Passage.exists_rendering⟩
  rintro ⟨rendering, rfl⟩
  rw [rendering.ofText_text, rendering.literals_passage]
  refine List.forall_mem_cons.mpr ⟨rendering.lead_free, fun literal member => ?_⟩
  obtain ⟨field, isField, rfl⟩ := List.mem_map.mp member
  exact rendering.fields_free field isField

theorem Rendering.unique {first second : Rendering} (same : first.text = second.text) :
    first.names = second.names ∧ first.literals = second.literals := by
  have read : first.passage = second.passage := by
    rw [← first.ofText_text, ← second.ofText_text, same]
  rw [← first.names_passage, ← first.literals_passage, read]
  exact ⟨second.names_passage, second.literals_passage⟩

theorem Rendering.passages_eq {mode : MatchMode} {content : Text} {renderings : List Rendering}
    (written : renderings.map text = mode.units content) :
    mode.passages content = renderings.map passage := by
  rw [MatchMode.passages, ← written, List.map_map]
  exact List.map_congr_left fun rendering _ => rendering.ofText_text

theorem malformed_eq_nil_iff {mode : MatchMode} {content : Text} :
    mode.malformed content = [] ↔
      ∀ unit ∈ mode.units content, ∃ rendering : Rendering, rendering.text = unit := by
  simp only [MatchMode.malformed, MatchMode.passages, List.flatMap_eq_nil_iff, List.mem_map,
    forall_exists_index, and_imp, forall_apply_eq_imp_iff₂, List.filterMap_eq_nil_iff,
    Placeholder.malformed?, Option.map_eq_none_iff, fromDelimiter?_eq_none_iff,
    exists_rendering_iff]

end Stencil
