import Mathlib.Data.List.DropRight
import Stencil.Template.Placeholder

/-! How placeholders are written, and that exactly the written ones are read.

A name between paddings determines them: it neither begins nor ends with a character that could
belong to the padding.
-/

set_option autoImplicit false

namespace Stencil.Placeholder

structure IsName (name : Text) : Prop where
  nonempty : name ≠ []
  letters : ∀ c ∈ name, c ≠ '%' ∧ c ≠ '\n'
  begins : ∀ c ∈ name.head?, Text.isBlank c = false
  ends : ∀ c ∈ name.getLast?, c ≠ ' ' ∧ c ≠ '\t'

/-- A placeholder as it is written: a name with spaces and tabs around it. -/
structure Spelling where
  before : Text
  name : Text
  behind : Text
  before_padding : ∀ c ∈ before, c = ' ' ∨ c = '\t'
  behind_padding : ∀ c ∈ behind, c = ' ' ∨ c = '\t'
  isName : IsName name

def Spelling.text (spelling : Spelling) : Text :=
  ['{', '%'] ++ spelling.before ++ spelling.name ++ spelling.behind ++ ['%', '}']

theorem Spelling.text_ne_nil (spelling : Spelling) : spelling.text ≠ [] := by
  simp [Spelling.text]

theorem isPadding_iff {c : Char} : isPadding c = true ↔ c = ' ' ∨ c = '\t' := by
  simp [isPadding]

theorem isPadding_eq_false_iff {c : Char} : isPadding c = false ↔ c ≠ ' ' ∧ c ≠ '\t' := by
  simp [isPadding]

theorem isPadding_of_visible {c : Char} (visible : Text.isBlank c = false) :
    isPadding c = false := by
  rw [isPadding_eq_false_iff]
  constructor <;> rintro rfl <;> exact absurd visible (by decide)

theorem inName_iff {c : Char} : inName c = true ↔ c ≠ '%' ∧ c ≠ '\n' := by
  simp [inName]

theorem inName_of_isPadding {c : Char} (padding : isPadding c = true) : inName c = true := by
  rcases isPadding_iff.mp padding with rfl | rfl <;> decide

theorem getLast?_unpadded {name : Text} {c : Char} (last : c ∈ (unpadded name).getLast?) :
    isPadding c = false := by
  rw [unpadded, List.getLast?_reverse] at last
  simpa [Option.mem_def.mp last] using List.head?_dropWhile_not isPadding name.reverse

theorem unpadded_append {name behind : Text} (padding : ∀ c ∈ behind, isPadding c)
    (ends : ∀ c ∈ name.getLast?, isPadding c = false) : unpadded (name ++ behind) = name := by
  have stop : name.reverse.dropWhile isPadding = name.reverse := by
    rw [← List.head?_reverse] at ends
    cases reversed : name.reverse with
    | nil => rfl
    | cons c rest => simp [ends c (by simp [reversed])]
  rw [unpadded, List.reverse_append, List.dropWhile_append_of_pos (by simpa using padding), stop,
    List.reverse_reverse]

theorem read?_text (spelling : Spelling) (rest : Text) :
    read? (spelling.text ++ rest) = some (spelling.name, rest) := by
  obtain ⟨before, name, behind, before_padding, behind_padding, nonempty, letters, begins, ends⟩ :=
    spelling
  cases name with
  | nil => exact absurd rfl nonempty
  | cons c name =>
    have visible : Text.isBlank c = false := begins c (by simp)
    have stop : isPadding c = false := isPadding_of_visible visible
    have inside : ∀ d ∈ c :: name ++ behind, inName d := by
      intro d member
      rcases List.mem_append.mp member with named | padding
      · exact inName_iff.mpr (letters d named)
      · exact inName_of_isPadding (isPadding_iff.mpr (behind_padding d padding))
    -- The padding ends at the name, the name at the percent sign, and what was taken with the name
    -- but belongs to the padding behind it is cut off again.
    have body : (before ++ (c :: name ++ behind ++ '%' :: '}' :: rest)).dropWhile isPadding =
        c :: name ++ behind ++ '%' :: '}' :: rest := by
      rw [List.dropWhile_append_of_pos fun d member => isPadding_iff.mpr (before_padding d member)]
      simp [stop]
    have taken : (c :: name ++ behind ++ '%' :: '}' :: rest).takeWhile inName =
        c :: name ++ behind := by
      rw [List.takeWhile_append_of_pos inside]
      simp [inName]
    have left : (c :: name ++ behind ++ '%' :: '}' :: rest).dropWhile inName =
        '%' :: '}' :: rest := by
      rw [List.dropWhile_append_of_pos inside]
      simp [inName]
    have trimmed : unpadded (c :: name ++ behind) = c :: name :=
      unpadded_append (fun d member => isPadding_iff.mpr (behind_padding d member))
        fun d last => isPadding_eq_false_iff.mpr (ends d last)
    have closed : closing? (c :: name ++ behind ++ '%' :: '}' :: rest) =
        some (c :: name, rest) := by
      rw [closing?, taken, left]
      simp only [List.cons_append] at trimmed ⊢
      simp only [visible, trimmed, Bool.false_eq_true, if_false]
    simp only [Spelling.text, List.cons_append, List.nil_append, List.append_assoc, read?] at body closed ⊢
    rw [body, closed]

theorem exists_spelling_of_read? {text name rest : Text} (found : read? text = some (name, rest)) :
    ∃ spelling : Spelling, spelling.name = name ∧ text = spelling.text ++ rest := by
  unfold read? at found
  split at found
  case h_2 => simp at found
  case h_1 body =>
  unfold closing? at found
  split at found
  case h_2 => simp at found
  case h_1 c taken after takes leaves =>
  split at found
  · simp at found
  · rename_i visible
    simp only [Option.some.injEq, Prod.mk.injEq] at found
    obtain ⟨rfl, rfl⟩ := found
    have letters : ∀ d ∈ c :: taken, inName d := by
      intro d member
      rw [← takes] at member
      exact List.mem_takeWhile_imp member
    have stop : isPadding c = false := isPadding_of_visible (by simpa using visible)
    have whole : c :: taken = unpadded (c :: taken) ++ (c :: taken).rtakeWhile isPadding :=
      List.rdropWhile_append_rtakeWhile.symm
    -- The first character is visible, so that cutting from the end never reaches it.
    have begins : (unpadded (c :: taken)).head? = some c := by
      cases shape : unpadded (c :: taken) with
      | nil =>
        rw [shape, List.nil_append] at whole
        have padding : isPadding c = true :=
          List.mem_rtakeWhile_imp (l := c :: taken) (whole ▸ List.mem_cons_self)
        rw [stop] at padding
        exact absurd padding (by decide)
      | cons d rest =>
        rw [shape, List.cons_append] at whole
        rw [(List.cons.inj whole).1]
        rfl
    refine ⟨{
      before := body.takeWhile isPadding
      name := unpadded (c :: taken)
      behind := (c :: taken).rtakeWhile isPadding
      before_padding := fun d member => isPadding_iff.mp (List.mem_takeWhile_imp member)
      behind_padding := fun d member => isPadding_iff.mp (List.mem_rtakeWhile_imp member)
      isName := ⟨fun empty => by simp [empty] at begins, fun d member => ?_, fun d first => ?_,
        fun d last => isPadding_eq_false_iff.mp (getLast?_unpadded last)⟩ }, rfl, ?_⟩
    · refine inName_iff.mp (letters d ?_)
      rw [whole]
      exact List.mem_append_left _ member
    · rw [begins] at first
      cases first
      simpa using visible
    · have opened := List.takeWhile_append_dropWhile (p := isPadding) (l := body)
      have named := List.takeWhile_append_dropWhile (p := inName) (l := body.dropWhile isPadding)
      rw [takes, leaves, whole] at named
      simp only [Spelling.text, List.cons_append, List.nil_append, List.append_assoc] at named ⊢
      rw [named, opened]

theorem read?_suffix {text name rest : Text} (found : read? text = some (name, rest)) :
    rest <:+ text := by
  obtain ⟨spelling, -, rfl⟩ := exists_spelling_of_read? found
  exact List.suffix_append _ _

end Stencil.Placeholder
