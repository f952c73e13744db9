import Stencil.Proofs.Notation

/-! Written patterns, read back from left to right.

A backslash with the character behind it stands for that character, the written form of a gap for a
group under its number, and every other character for itself. This reading has no other signs, so it
takes most texts for patterns. It meets what compiling writes with the literals and the groups that were
written, and agrees there with the reading of the notation: nothing that it takes for itself has another
meaning.
-/

set_option autoImplicit false

namespace Stencil

namespace Notation

/-- What is read back: literal text, then groups by their numbers, each followed by literal text. -/
structure Decoded where
  lead : Text
  groups : List (Nat × Text)
  deriving DecidableEq, Repr

namespace Decoded

def push (c : Char) (decoded : Decoded) : Decoded :=
  { decoded with lead := c :: decoded.lead }

/-- A group, and behind it what was read. -/
def behindGroup (number : Nat) (decoded : Decoded) : Decoded :=
  ⟨[], (number, decoded.lead) :: decoded.groups⟩

def literals (decoded : Decoded) : List Text :=
  decoded.lead :: decoded.groups.map Prod.snd

def numbers (decoded : Decoded) : List Nat :=
  decoded.groups.map Prod.fst

/-- The signs of the notation for what was read. -/
def signs (decoded : Decoded) : List Sign :=
  decoded.lead.map .letter ++ decoded.groups.flatMap fun (number, after) =>
    [.opening (Pattern.groupName number), .any, .star, .closing] ++ after.map .letter

/-- Literals with groups between them, numbered from a given number on. -/
def ofLiterals (number : Nat) (lead : Text) (later : List Text) : Decoded :=
  ⟨lead, (List.range' number later.length).zip later⟩

theorem ofLiterals_cons (number : Nat) (lead literal : Text) (later : List Text) :
    ofLiterals number lead (literal :: later) =
      { (ofLiterals (number + 1) literal later).behindGroup number with lead } := rfl

theorem literals_ofLiterals (number : Nat) (lead : Text) (later : List Text) :
    (ofLiterals number lead later).literals = lead :: later := by
  rw [literals, ofLiterals, List.map_snd_zip List.length_range'.ge]

theorem numbers_ofLiterals (number : Nat) (lead : Text) (later : List Text) :
    (ofLiterals number lead later).numbers = List.range' number later.length :=
  List.map_fst_zip List.length_range'.le

end Decoded

/-- Reads the number of a group and what closes the group behind it: the number, and what stands behind
the group. -/
def numbered? (inside : Text) : Option (Nat × Text) :=
  match inside.takeWhile Char.isDigit, inside.dropWhile Char.isDigit with
  | digit :: digits, '>' :: '.' :: '*' :: ')' :: after =>
    some (Nat.ofDigitChars 10 (digit :: digits) 0, after)
  | _, _ => none

/-- The group at the very start of a written pattern: its number, and what stands behind it. -/
def leadingGroup? : Text → Option (Nat × Text)
  | '(' :: '?' :: 'P' :: '<' :: '_' :: 'p' :: inside => numbered? inside
  | _ => none

theorem numbered?_shorter {inside after : Text} {number : Nat}
    (found : numbered? inside = some (number, after)) : after.length < inside.length := by
  have short : (inside.dropWhile Char.isDigit).length ≤ inside.length :=
    (List.dropWhile_suffix Char.isDigit).length_le
  unfold numbered? at found
  split at found
  · rename_i behind
    cases found
    rw [behind] at short
    simp only [List.length_cons] at short
    omega
  · exact absurd found (by simp)

theorem leadingGroup?_shorter {written after : Text} {number : Nat}
    (found : leadingGroup? written = some (number, after)) : after.length < written.length := by
  unfold leadingGroup? at found
  split at found
  · have shorter := numbered?_shorter found
    simp only [List.length_cons]
    omega
  · exact absurd found (by simp)

theorem leadingGroup?_of_ne {c : Char} (other : c ≠ '(') (rest : Text) :
    leadingGroup? (c :: rest) = none := by
  unfold leadingGroup?
  split
  · rename_i same
    exact absurd (List.cons.inj same).1 other
  · rfl

/-- Reads a written pattern. It is refused when its last character is a backslash that stands for
nothing. -/
def decode? (written : Text) : Option Decoded :=
  match written with
  | [] => some ⟨[], []⟩
  | c :: rest =>
    match _found : leadingGroup? (c :: rest) with
    | some (number, after) => (decode? after).map (.behindGroup number)
    | none =>
      if c = '\\' then
        match rest with
        | [] => none
        | d :: rest => (decode? rest).map (.push d)
      else (decode? rest).map (.push c)
termination_by written.length
decreasing_by
  · exact leadingGroup?_shorter _found
  · simp only [List.length_cons]
    omega
  · simp

/-! ## Reading what is written -/

theorem decode?_escape (c : Char) (rest : Text) :
    decode? ('\\' :: c :: rest) = (decode? rest).map (.push c) := by
  rw [decode?]
  split
  · rename_i found
    rw [leadingGroup?_of_ne (by decide)] at found
    exact absurd found (by simp)
  · rw [if_pos rfl]

theorem decode?_letter {c : Char} (plain : Pattern.specialCharacters.contains c = false)
    (rest : Text) : decode? (c :: rest) = (decode? rest).map (.push c) := by
  rw [decode?]
  split
  · rename_i found
    rw [leadingGroup?_of_ne (ne_of_special plain (by decide))] at found
    exact absurd found (by simp)
  · rw [if_neg (ne_of_special plain (by decide))]

theorem decode?_escaped (literal rest : Text) :
    decode? (Pattern.escaped literal ++ rest) =
      (decode? rest).map fun decoded => { decoded with lead := literal ++ decoded.lead } := by
  induction literal with
  | nil => simp [Pattern.escaped]
  | cons c literal ih =>
    have character (rest : Text) :
        decode? (Pattern.escapedChar c ++ rest) = (decode? rest).map (.push c) := by
      rw [Pattern.escapedChar]
      split
      · exact decode?_escape c rest
      · rename_i plain
        exact decode?_letter (by simpa using plain) rest
    unfold Pattern.escaped at ih ⊢
    rw [List.flatMap_cons, List.append_assoc, character, ih, Option.map_map]
    rfl

theorem numbered?_toString (number : Nat) (rest : Text) :
    numbered? ((toString number).toList ++ '>' :: '.' :: '*' :: ')' :: rest) =
      some (number, rest) := by
  have value : Nat.ofDigitChars 10 (toString number).toList 0 = number := by
    rw [Nat.toString_eq_ofList_toDigits, String.toList_ofList, Nat.ofDigitChars_ten_toDigits]
  have nonempty : (toString number).toList ≠ [] := by
    rw [Nat.toString_eq_ofList_toDigits, String.toList_ofList]
    exact Nat.toDigits_ne_nil
  have digits : ∀ c ∈ (toString number).toList, c.isDigit = true :=
    fun _ => isDigit_of_mem_toString
  generalize (toString number).toList = decimal at value nonempty digits
  obtain ⟨digit, later, rfl⟩ := List.exists_cons_of_ne_nil nonempty
  -- The digits end where the name of the group does.
  have taken : (digit :: later ++ '>' :: '.' :: '*' :: ')' :: rest).takeWhile Char.isDigit =
      digit :: later := by
    rw [List.takeWhile_append_of_pos digits]
    simp
  have left : (digit :: later ++ '>' :: '.' :: '*' :: ')' :: rest).dropWhile Char.isDigit =
      '>' :: '.' :: '*' :: ')' :: rest := by
    rw [List.dropWhile_append_of_pos digits]
    simp
  rw [numbered?, taken, left]
  simp only [value]

theorem leadingGroup?_group (number : Nat) (rest : Text) :
    leadingGroup? (Pattern.group number ['.', '*'] ++ rest) = some (number, rest) := by
  have opens : "(?P<_p".toList = ['(', '?', 'P', '<', '_', 'p'] := by decide
  have written : Pattern.group number ['.', '*'] ++ rest = '(' :: '?' :: 'P' :: '<' :: '_' :: 'p' ::
      ((toString number).toList ++ '>' :: '.' :: '*' :: ')' :: rest) := by
    unfold Pattern.group
    generalize toString number = numeral
    rw [opens]
    simp
  rw [written, leadingGroup?, numbered?_toString]

theorem decode?_group (number : Nat) (rest : Text) :
    decode? (Pattern.group number ['.', '*'] ++ rest) =
      (decode? rest).map (.behindGroup number) := by
  have found := leadingGroup?_group number rest
  cases written : Pattern.group number ['.', '*'] ++ rest with
  | nil =>
    rw [written] at found
    exact absurd found (by simp [leadingGroup?])
  | cons c behind =>
    rw [written] at found
    rw [decode?]
    split
    · rename_i same
      rw [found] at same
      cases same
      rfl
    · rename_i missing
      rw [found] at missing
      exact absurd missing (by simp)

theorem decode?_spaced (number : Nat) (lead : Text) (later : List Text) :
    decode? (Pattern.sourceFrom number (.literal lead :: Pattern.spaced later)) =
      some (.ofLiterals number lead later) := by
  -- The induction runs over the literals and carries the number of the next group.
  induction later generalizing number lead with
  | nil =>
    have read := decode?_escaped lead []
    rw [decode?] at read
    simpa [Pattern.spaced, Pattern.sourceFrom, Decoded.ofLiterals] using read
  | cons literal later ih =>
    have behind : Pattern.sourceFrom number (.literal lead :: Pattern.spaced (literal :: later)) =
        Pattern.escaped lead ++ (Pattern.group number ['.', '*'] ++
          Pattern.sourceFrom (number + 1) (.literal literal :: Pattern.spaced later)) := rfl
    rw [behind, decode?_escaped, decode?_group, ih, Decoded.ofLiterals_cons]
    simp [Decoded.behindGroup]

theorem signsFrom_spaced (number : Nat) (lead : Text) (later : List Text) :
    signsFrom number (.literal lead :: Pattern.spaced later) =
      (Decoded.ofLiterals number lead later).signs := by
  induction later generalizing number lead with
  | nil => rfl
  | cons literal later ih =>
    have behind : signsFrom number (.literal lead :: Pattern.spaced (literal :: later)) =
        lead.map .letter ++ ([.opening (Pattern.groupName number), .any, .star, .closing] ++
          signsFrom (number + 1) (.literal literal :: Pattern.spaced later)) := rfl
    rw [behind, ih, Decoded.ofLiterals_cons]
    simp [Decoded.signs, Decoded.behindGroup, Decoded.ofLiterals]

end Notation

/-! ## Written units -/

/-- The written form that a unit of a template is compiled to. -/
def MatchMode.written (mode : MatchMode) (unit : Text) : Text :=
  ((Passage.ofText unit).pattern mode).source

namespace Passage

/-- What is read back from the written pattern of a passage. -/
def decoded (mode : MatchMode) (passage : Passage) : Notation.Decoded :=
  .ofLiterals 0 (mode.level passage.lead) (passage.slots.map fun slot => mode.level slot.after)

theorem decode?_source (mode : MatchMode) (passage : Passage) :
    Notation.decode? (passage.pattern mode).source = some (passage.decoded mode) := by
  rw [Pattern.source, pattern_eq, Notation.decode?_spaced]
  rfl

theorem literals_decoded (mode : MatchMode) (passage : Passage) :
    (passage.decoded mode).literals = passage.pieces mode := by
  rw [decoded, Notation.Decoded.literals_ofLiterals, pieces_eq]

theorem numbers_decoded (mode : MatchMode) (passage : Passage) :
    (passage.decoded mode).numbers = List.range passage.names.length := by
  rw [decoded, Notation.Decoded.numbers_ofLiterals, List.length_map, length_names,
    List.range_eq_range']

theorem signs?_source (mode : MatchMode) (passage : Passage) :
    Notation.signs? (passage.pattern mode).source = some (passage.decoded mode).signs := by
  rw [Notation.signs?_source, pattern_eq, Notation.signsFrom_spaced]
  rfl

/-- Passages are written alike exactly when their literals are. -/
theorem source_eq_iff {mode other : MatchMode} {first second : Passage} :
    (first.pattern mode).source = (second.pattern other).source ↔
      first.pieces mode = second.pieces other := by
  constructor
  · intro same
    have read := first.decode?_source mode
    rw [same, second.decode?_source, Option.some.injEq] at read
    rw [← literals_decoded, ← literals_decoded, read]
  · intro same
    rw [pieces_eq, pieces_eq] at same
    obtain ⟨lead, later⟩ := List.cons.inj same
    rw [pattern_eq, pattern_eq, lead, later]

end Passage

theorem Compiled.sources_ofTemplate (mode : MatchMode) (content : Text) :
    (ofTemplate mode content).sources = (mode.units content).map mode.written := by
  simp only [sources, ofTemplate, MatchMode.passages, List.map_map]
  rfl

-- Text that looks like a group, and a backslash right in front of a placeholder.
example : Notation.decode? (MatchMode.line.written "(?P<_p1>.*)\\{%A%}".toList) =
    some ⟨"(?P<_p1>.*)\\".toList, [(0, [])]⟩ := by decide +kernel

end Stencil
