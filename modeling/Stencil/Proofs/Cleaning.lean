import Mathlib.Data.List.DropRight
import Stencil.Text.Markup

/-! Trimmed texts and cleaned values. Characters are only ever left out: trimming stops at the first
visible one from either end, and a value without tags and without blanks at its ends stays as it is.
-/

set_option autoImplicit false

namespace Stencil.Text

theorem trimStart_suffix (text : Text) : text.trimStart <:+ text :=
  List.dropWhile_suffix isBlank

theorem trimEnd_prefix_self (text : Text) : text.trimEnd <+: text :=
  List.rdropWhile_prefix isBlank text

theorem trim_sublist (text : Text) : List.Sublist text.trim text :=
  (trimEnd_prefix_self _).sublist.trans (trimStart_suffix _).sublist

theorem not_blank_of_head?_trim {text : Text} {c : Char} (first : c ∈ text.trim.head?) :
    isBlank c = false := by
  have kept : c ∈ text.trimStart.head? := by
    obtain ⟨behind, whole⟩ := trimEnd_prefix_self text.trimStart
    rw [trim] at first
    cases shape : text.trimStart.trimEnd with
    | nil => simp [shape] at first
    | cons d rest =>
      rw [shape] at whole first
      rw [← whole]
      exact first
  have stopped := List.head?_dropWhile_not isBlank text
  rw [trimStart, Option.mem_def] at kept
  simpa [kept] using stopped

theorem not_blank_of_getLast?_trim {text : Text} {c : Char} (last : c ∈ text.trim.getLast?) :
    isBlank c = false := by
  rw [trim, trimEnd, List.getLast?_reverse] at last
  have stopped := List.head?_dropWhile_not isBlank text.trimStart.reverse
  simpa [Option.mem_def.mp last] using stopped

theorem trimStart_eq_self {text : Text} (begins : ∀ c ∈ text.head?, isBlank c = false) :
    text.trimStart = text := by
  cases text with
  | nil => rfl
  | cons c rest => simp [trimStart, begins c (by simp)]

theorem trimEnd_eq_self {text : Text} (ends : ∀ c ∈ text.getLast?, isBlank c = false) :
    text.trimEnd = text := by
  rw [← List.head?_reverse] at ends
  rw [trimEnd]
  cases reversed : text.reverse with
  | nil => simpa using reversed.symm
  | cons c rest =>
    rw [reversed] at ends
    rw [List.dropWhile_cons_of_neg (by simpa using ends c (by simp)), ← reversed,
      List.reverse_reverse]

theorem trim_eq_self {text : Text} (begins : ∀ c ∈ text.head?, isBlank c = false)
    (ends : ∀ c ∈ text.getLast?, isBlank c = false) : text.trim = text := by
  rw [trim, trimStart_eq_self begins, trimEnd_eq_self ends]

theorem trim_trim (text : Text) : text.trim.trim = text.trim :=
  trim_eq_self (fun _ => not_blank_of_head?_trim) (fun _ => not_blank_of_getLast?_trim)

theorem trimStart_eq_nil_iff {text : Text} :
    text.trimStart = [] ↔ ∀ c ∈ text, isBlank c = true :=
  List.dropWhile_eq_nil_iff

theorem trimEnd_eq_nil_iff {text : Text} : text.trimEnd = [] ↔ ∀ c ∈ text, isBlank c = true := by
  rw [trimEnd, List.reverse_eq_nil_iff, List.dropWhile_eq_nil_iff]
  simp only [List.mem_reverse]

theorem trimStart_append (first second : Text) :
    (first ++ second).trimStart =
      if first.trimStart = [] then second.trimStart else first.trimStart ++ second := by
  unfold trimStart
  rw [List.dropWhile_append]
  by_cases blank : first.dropWhile isBlank = [] <;> simp [blank]

theorem trimEnd_append (first second : Text) :
    (first ++ second).trimEnd =
      if second.trimEnd = [] then first.trimEnd else first ++ second.trimEnd := by
  simp only [trimEnd, List.reverse_append, List.dropWhile_append, List.isEmpty_iff,
    List.reverse_eq_nil_iff]
  split <;> simp

theorem exists_blanks_append_trimStart (text : Text) :
    ∃ blanks, (∀ c ∈ blanks, isBlank c = true) ∧ text = blanks ++ text.trimStart :=
  ⟨text.takeWhile isBlank, fun _ => List.mem_takeWhile_imp,
    List.takeWhile_append_dropWhile.symm⟩

theorem exists_trimEnd_append_blanks (text : Text) :
    ∃ blanks, (∀ c ∈ blanks, isBlank c = true) ∧ text = text.trimEnd ++ blanks := by
  refine ⟨(text.reverse.takeWhile isBlank).reverse, fun c member => ?_, ?_⟩
  · exact List.mem_takeWhile_imp (List.mem_reverse.mp member)
  · rw [trimEnd, ← List.reverse_append, List.takeWhile_append_dropWhile, List.reverse_reverse]

theorem exists_blanks_append_trim (text : Text) :
    ∃ before behind, (∀ c ∈ before, isBlank c = true) ∧ (∀ c ∈ behind, isBlank c = true) ∧
      text = before ++ text.trim ++ behind := by
  obtain ⟨before, blank, whole⟩ := exists_blanks_append_trimStart text
  obtain ⟨behind, blank', rest⟩ := exists_trimEnd_append_blanks text.trimStart
  refine ⟨before, behind, blank, blank', ?_⟩
  rw [List.append_assoc, trim, ← rest]
  exact whole

theorem trim_eq_nil_iff {text : Text} : text.trim = [] ↔ ∀ c ∈ text, isBlank c = true := by
  obtain ⟨blanks, blank, whole⟩ := exists_blanks_append_trimStart text
  rw [trim, trimEnd_eq_nil_iff]
  refine ⟨fun rest => ?_, fun all c letter => all c ((trimStart_suffix text).subset letter)⟩
  rw [whole]
  exact List.forall_mem_append.mpr ⟨blank, rest⟩

theorem trimStart_trimEnd (text : Text) : text.trimEnd.trimStart = text.trim := by
  obtain ⟨blanks, blank, whole⟩ := exists_blanks_append_trimStart text
  conv_lhs => rw [whole, trimEnd_append]
  by_cases nothing : text.trimStart.trimEnd = []
  · rw [if_pos nothing, trimEnd_eq_nil_iff.mpr blank, trim, nothing]
    rfl
  · rw [if_neg nothing, trimStart_append, if_pos (trimStart_eq_nil_iff.mpr blank), ← trim]
    exact trimStart_eq_self fun _ => not_blank_of_head?_trim

theorem getLast?_trim_eq_some_iff {text : Text} {c : Char} (visible : isBlank c = false) :
    text.trim.getLast? = some c ↔
      ∃ front blanks, (∀ d ∈ blanks, isBlank d = true) ∧ text = front ++ c :: blanks := by
  constructor
  · intro last
    obtain ⟨before, behind, -, blank, whole⟩ := exists_blanks_append_trim text
    obtain ⟨front, trimmed⟩ := List.getLast?_eq_some_iff.mp last
    refine ⟨before ++ front, behind, blank, ?_⟩
    rw [trimmed] at whole
    simpa using whole
  · rintro ⟨front, blanks, blank, rfl⟩
    have alone : trimEnd (c :: blanks) = [c] := by
      rw [← List.singleton_append, trimEnd_append, if_pos (trimEnd_eq_nil_iff.mpr blank)]
      exact trimEnd_eq_self (by simpa using visible)
    rw [← trimStart_trimEnd, trimEnd_append, alone, if_neg (by simp), trimStart_append]
    split
    · rw [trimStart_eq_self (by simpa using visible)]
      rfl
    · rw [List.getLast?_append_of_ne_nil _ (by simp)]
      rfl

/-- Every `<` is followed by a blank, so that none opens a tag. -/
def TagFree (value : Text) : Prop :=
  ∀ before after, value = before ++ '<' :: after → ∃ c ∈ after.head?, isBlank c = true

theorem opensTag_eq_false_iff {after : Text} :
    opensTag after = false ↔ ∃ c ∈ after.head?, isBlank c = true := by
  cases after <;> simp [opensTag]

theorem tagFree_cons {c : Char} {value : Text} :
    TagFree (c :: value) ↔ (c = '<' → opensTag value = false) ∧ TagFree value := by
  constructor
  · intro free
    refine ⟨?_, fun before after same => free (c :: before) after (by rw [same, List.cons_append])⟩
    rintro rfl
    exact opensTag_eq_false_iff.mpr (free [] value rfl)
  · rintro ⟨here, later⟩ before after same
    cases before with
    | nil =>
      obtain ⟨angle, rfl⟩ := List.cons.inj same
      exact opensTag_eq_false_iff.mp (here angle)
    | cons d before => exact later before after (List.cons.inj same).2

theorem withoutTagsFrom_sublist (inside : Bool) (value : Text) :
    List.Sublist (withoutTagsFrom inside value) value := by
  induction value generalizing inside with
  | nil => rw [withoutTagsFrom]
  | cons c value ih =>
    cases inside with
    | true =>
      rw [withoutTagsFrom]
      exact (ih _).cons c
    | false =>
      rw [withoutTagsFrom]
      split
      · exact (ih _).cons c
      · exact (ih _).cons_cons c

theorem withoutTags_eq_self_iff {value : Text} : withoutTags value = value ↔ TagFree value := by
  unfold withoutTags
  induction value with
  | nil => exact iff_of_true rfl fun before after same => by simp at same
  | cons c value ih =>
    rw [withoutTagsFrom, tagFree_cons]
    split
    · rename_i opens
      rw [Bool.and_eq_true, decide_eq_true_eq] at opens
      constructor
      · intro same
        have short := (withoutTagsFrom_sublist true value).length_le
        rw [same, List.length_cons] at short
        omega
      · rintro ⟨closed, -⟩
        rw [closed opens.1] at opens
        exact absurd opens.2 (by decide)
    · rename_i kept
      have closed : c = '<' → opensTag value = false := by simpa using kept
      rw [List.cons_inj_right, ih]
      exact ⟨fun free => ⟨closed, free⟩, And.right⟩

instance (value : Text) : Decidable (TagFree value) :=
  decidable_of_iff _ withoutTags_eq_self_iff

theorem clean_sublist (value : Text) : List.Sublist (clean value) value :=
  (trim_sublist _).trans (withoutTagsFrom_sublist false value)

theorem length_clean_le (value : Text) : (clean value).length ≤ value.length :=
  (clean_sublist value).length_le

theorem clean_blanks_append {blanks : Text} (blank : ∀ c ∈ blanks, isBlank c = true)
    (value : Text) : clean (blanks ++ value) = clean value := by
  have kept : withoutTags (blanks ++ value) = blanks ++ withoutTags value := by
    unfold withoutTags
    induction blanks with
    | nil => rfl
    | cons c blanks ih =>
      obtain ⟨here, later⟩ := List.forall_mem_cons.mp blank
      have opens : c ≠ '<' := by
        rintro rfl
        exact absurd here (by decide)
      rw [List.cons_append, withoutTagsFrom, if_neg (by simp [opens]), ih later, List.cons_append]
  rw [clean, kept, trim, trimStart_append, if_pos (trimStart_eq_nil_iff.mpr blank)]
  rfl

theorem clean_eq_self {value : Text} (trimmed : value.trim = value) (free : TagFree value) :
    clean value = value := by
  rw [clean, withoutTags_eq_self_iff.mpr free, trimmed]

end Stencil.Text
