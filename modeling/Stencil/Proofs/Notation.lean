import Mathlib.Data.List.Nodup
import Stencil.Proofs.Cutoffs

/-! The notation of patterns, read as it is written.

A written pattern is read from left to right into signs: characters that stand for themselves, signs of
repetition, and the ends of named groups. Whatever has another meaning, or none, is refused. Signs make
a pattern when every group is closed and every repetition repeats something. What is read from the
written form of a pattern are its own pieces, so that no text between placeholders opens, closes or
counts as a group.
-/

set_option autoImplicit false

namespace Stencil

/-- The name under which a capture is written, by its number. -/
def Pattern.groupName (number : Nat) : Text :=
  "_p".toList ++ (toString number).toList

namespace Notation

inductive Sign where
  | letter (c : Char)
  | any
  | star
  | maybe
  | opening (name : Text)
  | closing
  deriving DecidableEq, Repr

/-- Where reading stands: outside of everything, behind a backslash, or behind an opening parenthesis,
with what was read since. -/
inductive Reading where
  | outside
  | escape
  | opening (seen : Text)
  deriving DecidableEq, Repr

/-- Characters that have a meaning of their own in the notation, beyond what patterns make use of. -/
def refused : List Char :=
  ['[', ']', '{', '}', '+', '|', '^', '$']

/-- What a character means where no backslash stands before it. -/
def unescaped? (c : Char) : Option Sign :=
  if c = ')' then some .closing
  else if c = '.' then some .any
  else if c = '*' then some .star
  else if c = '?' then some .maybe
  else if refused.contains c then none
  else some (.letter c)

def inGroupName (c : Char) : Bool :=
  c.isAlphanum || c = '_'

/-- The name of a group from what stands behind its parenthesis. -/
def groupName? : Text → Option Text
  | '?' :: 'P' :: '<' :: c :: name =>
    if (c :: name).all inGroupName && !c.isDigit then some (c :: name) else none
  | _ => none

/-- The signs of a written pattern. A backslash before a letter or a digit would call for a class of
characters, which is refused. -/
def signsFrom? : Reading → Text → Option (List Sign)
  | .outside, [] => some []
  | _, [] => none
  | .escape, c :: rest =>
    if c.isAlphanum then none else (signsFrom? .outside rest).map (.letter c :: ·)
  | .opening seen, c :: rest =>
    if c = '>' then
      (groupName? seen).bind fun name => (signsFrom? .outside rest).map (.opening name :: ·)
    else signsFrom? (.opening (seen ++ [c])) rest
  | .outside, c :: rest =>
    if c = '\\' then signsFrom? .escape rest
    else if c = '(' then signsFrom? (.opening []) rest
    else (unescaped? c).bind fun sign => (signsFrom? .outside rest).map (sign :: ·)

def signs? (written : Text) : Option (List Sign) :=
  signsFrom? .outside written

/-- Whether signs make a pattern, inside a number of open groups and behind something that can be
repeated or not. -/
def wellFormed : Nat → Bool → List Sign → Bool
  | depth, _, [] => depth = 0
  | depth, _, .letter _ :: rest => wellFormed depth true rest
  | depth, _, .any :: rest => wellFormed depth true rest
  | depth, repeatable, .star :: rest => repeatable && wellFormed depth false rest
  | depth, repeatable, .maybe :: rest => repeatable && wellFormed depth false rest
  | depth, _, .opening _ :: rest => wellFormed (depth + 1) false rest
  | 0, _, .closing :: _ => false
  | depth + 1, _, .closing :: rest => wellFormed depth true rest

def Sign.opened? : Sign → Option Text
  | .opening name => some name
  | _ => none

/-- The names of the groups of a written pattern, in the order in which they open, if it is one. -/
def groups? (written : Text) : Option (List Text) :=
  (signs? written).bind fun signs =>
    if wellFormed 0 false signs then some (signs.filterMap Sign.opened?) else none

/-- The signs of the pieces of a pattern, from a given capture number on. -/
def signsFrom : Nat → Pattern → List Sign
  | _, [] => []
  | number, .literal text :: rest => text.map .letter ++ signsFrom number rest
  | number, .gap :: rest =>
    [.opening (Pattern.groupName number), .any, .star, .closing] ++ signsFrom (number + 1) rest
  | number, .optional text :: rest =>
    .opening (Pattern.groupName number) ::
      (text.map .letter ++ [.closing, .maybe] ++ signsFrom (number + 1) rest)

/-! ## Reading back what is written -/

theorem signsFrom?_special {c : Char} (special : Pattern.specialCharacters.contains c = true)
    (rest : Text) :
    signsFrom? .outside ('\\' :: c :: rest) =
      (signsFrom? .outside rest).map (.letter c :: ·) := by
  have noLetter : c.isAlphanum = false := by
    have checked : Pattern.specialCharacters.all (!·.isAlphanum) = true := by decide
    simpa using List.all_eq_true.mp checked c (List.contains_iff_mem.mp special)
  rw [signsFrom?, if_pos rfl, signsFrom?, noLetter, if_neg (by simp)]

theorem ne_of_special {c d : Char} (plain : Pattern.specialCharacters.contains c = false)
    (special : Pattern.specialCharacters.contains d = true) : c ≠ d := by
  rintro rfl
  rw [plain] at special
  exact absurd special (by decide)

theorem signsFrom?_plain {c : Char} (plain : Pattern.specialCharacters.contains c = false)
    (rest : Text) :
    signsFrom? .outside (c :: rest) = (signsFrom? .outside rest).map (.letter c :: ·) := by
  have other (d : Char) (special : Pattern.specialCharacters.contains d = true) : c ≠ d :=
    ne_of_special plain special
  have known : refused.contains c = false := by
    by_contra meaning
    have checked : refused.all (Pattern.specialCharacters.contains ·) = true := by decide
    have special := List.all_eq_true.mp checked c (List.contains_iff_mem.mp (by simpa using meaning))
    exact other c special rfl
  rw [signsFrom?, if_neg (other '\\' (by decide)), if_neg (other '(' (by decide)), unescaped?,
    if_neg (other ')' (by decide)), if_neg (other '.' (by decide)), if_neg (other '*' (by decide)),
    if_neg (other '?' (by decide)), known, if_neg (by simp)]
  rfl

theorem signsFrom?_escaped (literal rest : Text) :
    signsFrom? .outside (Pattern.escaped literal ++ rest) =
      (signsFrom? .outside rest).map (literal.map .letter ++ ·) := by
  induction literal with
  | nil => simp [Pattern.escaped]
  | cons c literal ih =>
    unfold Pattern.escaped at ih ⊢
    rw [List.flatMap_cons, List.append_assoc, Pattern.escapedChar]
    by_cases special : Pattern.specialCharacters.contains c = true
    · rw [if_pos special, List.cons_append, List.singleton_append, signsFrom?_special special, ih,
        Option.map_map]
      rfl
    · rw [if_neg special, List.singleton_append, signsFrom?_plain (by simpa using special), ih,
        Option.map_map]
      rfl

theorem signsFrom?_opening {seen more : Text} (inside : '>' ∉ more) (rest : Text) :
    signsFrom? (.opening seen) (more ++ '>' :: rest) =
      (groupName? (seen ++ more)).bind fun name =>
        (signsFrom? .outside rest).map (.opening name :: ·) := by
  induction more generalizing seen with
  | nil => rw [List.nil_append, signsFrom?, if_pos rfl, List.append_nil]
  | cons c more ih =>
    rw [List.mem_cons, not_or] at inside
    rw [List.cons_append, signsFrom?, if_neg (Ne.symm inside.1), ih inside.2, List.append_assoc]
    rfl

theorem isDigit_of_mem_toString {number : Nat} {c : Char} (digit : c ∈ (toString number).toList) :
    c.isDigit = true := by
  rw [Nat.toString_eq_ofList_toDigits, String.toList_ofList] at digit
  exact Nat.isDigit_of_mem_toDigits (by decide) (by decide) digit

theorem groupName?_groupName (number : Nat) :
    groupName? ("?P<".toList ++ Pattern.groupName number) = some (Pattern.groupName number) := by
  have named : (Pattern.groupName number).all inGroupName = true := by
    rw [Pattern.groupName, List.all_append, Bool.and_eq_true]
    refine ⟨by decide, List.all_eq_true.mpr fun c digit => ?_⟩
    simp [inGroupName, Char.isAlphanum, isDigit_of_mem_toString digit]
  show (if (Pattern.groupName number).all inGroupName && !Char.isDigit '_' then _ else none) = _
  rw [named]
  rfl

theorem signsFrom?_group (number : Nat) (body rest : Text) :
    signsFrom? .outside (Pattern.group number body ++ rest) =
      (signsFrom? .outside (body ++ ')' :: rest)).map
        (.opening (Pattern.groupName number) :: ·) := by
  have inside : '>' ∉ "?P<".toList ++ Pattern.groupName number := by
    rw [Pattern.groupName, List.mem_append, List.mem_append]
    rintro (opening | named | digit)
    · exact absurd opening (by decide)
    · exact absurd named (by decide)
    · exact absurd (isDigit_of_mem_toString digit) (by decide)
  have begins : "(?P<_p".toList = '(' :: ("?P<".toList ++ "_p".toList) := by decide
  have written : Pattern.group number body ++ rest =
      '(' :: (("?P<".toList ++ Pattern.groupName number) ++ '>' :: (body ++ ')' :: rest)) := by
    unfold Pattern.group Pattern.groupName
    rw [begins]
    generalize "?P<".toList = front
    generalize "_p".toList = stem
    simp
  rw [written, signsFrom?, if_neg (by decide), if_pos rfl, signsFrom?_opening inside,
    List.nil_append, groupName?_groupName]
  rfl

theorem signsFrom?_unescaped {c : Char} (sign : Sign) (means : unescaped? c = some sign)
    (outside : c ≠ '\\' ∧ c ≠ '(') (rest : Text) :
    signsFrom? .outside (c :: rest) = (signsFrom? .outside rest).map (sign :: ·) := by
  rw [signsFrom?, if_neg outside.1, if_neg outside.2, means]
  rfl

/-- The written form of pieces is read as their signs. -/
theorem signsFrom?_sourceFrom (number : Nat) (pattern : Pattern) :
    signsFrom? .outside (Pattern.sourceFrom number pattern) = some (signsFrom number pattern) := by
  induction pattern generalizing number with
  | nil => rfl
  | cons piece rest ih =>
    cases piece with
    | literal text =>
      rw [Pattern.sourceFrom, signsFrom?_escaped, ih]
      rfl
    | gap =>
      rw [Pattern.sourceFrom, signsFrom?_group, List.cons_append, List.singleton_append,
        signsFrom?_unescaped .any rfl (by decide),
        signsFrom?_unescaped .star rfl (by decide),
        signsFrom?_unescaped .closing rfl (by decide), ih]
      rfl
    | optional text =>
      rw [Pattern.sourceFrom, signsFrom?_group, signsFrom?_escaped,
        signsFrom?_unescaped .closing rfl (by decide),
        signsFrom?_unescaped .maybe rfl (by decide), ih]
      simp [signsFrom]

/-! ## Groups of a pattern -/

theorem wellFormed_letters {depth : Nat} {signs : List Sign}
    (later : ∀ repeatable, wellFormed depth repeatable signs = true) (literal : Text)
    (repeatable : Bool) : wellFormed depth repeatable (literal.map .letter ++ signs) = true := by
  induction literal generalizing repeatable with
  | nil => exact later repeatable
  | cons c literal ih => exact ih true

/-- Pieces leave no group open, and repeat nothing but what stands in their own group. -/
theorem wellFormed_signsFrom (number : Nat) (pattern : Pattern) (repeatable : Bool) :
    wellFormed 0 repeatable (signsFrom number pattern) = true := by
  induction pattern generalizing number repeatable with
  | nil => rfl
  | cons piece rest ih =>
    cases piece with
    | literal text => exact wellFormed_letters (ih number) text repeatable
    | gap => exact ih (number + 1) true
    | optional text =>
      have closed (inside : Bool) : wellFormed 1 inside
          (.closing :: .maybe :: signsFrom (number + 1) rest) = true := ih (number + 1) false
      rw [signsFrom, wellFormed, List.append_assoc]
      exact wellFormed_letters closed text false

theorem opened_letters (literal : Text) :
    (literal.map Sign.letter).filterMap Sign.opened? = [] := by
  rw [List.filterMap_map]
  exact List.filterMap_eq_nil_iff.mpr fun _ _ => rfl

theorem opened_signsFrom (number : Nat) (pattern : Pattern) :
    (signsFrom number pattern).filterMap Sign.opened? =
      (List.range' number pattern.groups).map Pattern.groupName := by
  induction pattern generalizing number with
  | nil => rfl
  | cons piece rest ih =>
    cases piece with
    | literal text => rw [signsFrom, List.filterMap_append, opened_letters, ih]; rfl
    | gap =>
      rw [signsFrom, List.filterMap_append, ih, Pattern.groups, List.range'_succ]
      rfl
    | optional text =>
      rw [signsFrom, ← List.singleton_append, List.filterMap_append, List.filterMap_append,
        List.filterMap_append, opened_letters, ih, Pattern.groups, List.range'_succ]
      rfl

theorem signs?_source (pattern : Pattern) : signs? pattern.source = some (signsFrom 0 pattern) :=
  signsFrom?_sourceFrom 0 pattern

theorem groups?_source (pattern : Pattern) :
    groups? pattern.source = some ((List.range pattern.groups).map Pattern.groupName) := by
  rw [groups?, signs?_source, Option.bind_some, wellFormed_signsFrom, if_pos rfl, opened_signsFrom,
    List.range_eq_range']

theorem groupName_injective : Function.Injective Pattern.groupName := by
  intro first second same
  have digits : Nat.toDigits 10 first = Nat.toDigits 10 second := by
    have written := List.append_cancel_left same
    rwa [Nat.toString_eq_ofList_toDigits, Nat.toString_eq_ofList_toDigits, String.toList_ofList,
      String.toList_ofList] at written
  rw [← Nat.ofDigitChars_ten_toDigits (n := first), digits, Nat.ofDigitChars_ten_toDigits]

end Notation

namespace Passage

theorem groups_pattern (mode : MatchMode) (passage : Passage) :
    (passage.pattern mode).groups = passage.names.length := by
  obtain ⟨lead, slots⟩ := passage
  have counted (slots : List Slot) : Pattern.groups
      (slots.flatMap fun slot => [.gap, .literal (mode.level slot.after)]) = slots.length := by
    induction slots with
    | nil => rfl
    | cons slot slots ih => exact congrArg (· + 1) ih
  rw [length_names]
  exact counted slots

end Passage

namespace MatchMode

theorem length_units (mode : MatchMode) (content : Text) :
    (mode.units content).length =
      match mode with
      | whole => 1
      | line => content.lines.countP fun line => !line.all Text.isBlank := by
  cases mode with
  | whole => rfl
  | line =>
    have blank (line : Text) : line.trim.isEmpty = line.all Text.isBlank := by
      rw [Bool.eq_iff_iff, List.isEmpty_iff, List.all_eq_true, Text.trim_eq_nil_iff]
    rw [units, ← List.countP_eq_length_filter, List.countP_map]
    simp only [Function.comp_def, blank]

end MatchMode

/-! ## Compiled templates -/

/-- Patterns and names of a template fit together. The groups of a written pattern are numbered from
zero, one for each of its names; they are told apart by their own names, and all of them take part in
every match. -/
structure Compiled.WellFormed (compiled : Compiled) : Prop where
  paired : compiled.patterns.length = compiled.names.length
  written : ∀ (index : Nat) (pattern : Pattern) (names : List Text),
    compiled.patterns[index]? = some pattern → compiled.names[index]? = some names →
    Notation.signs? pattern.source = some (Notation.signsFrom 0 pattern) ∧
    Notation.groups? pattern.source = some ((List.range names.length).map Pattern.groupName) ∧
    ((List.range names.length).map Pattern.groupName).Nodup
  captured : ∀ (index : Nat) (pattern : Pattern) (names : List Text),
    compiled.patterns[index]? = some pattern → compiled.names[index]? = some names →
    ∀ text captures, pattern.search? compiled.mode text = some captures →
      ∃ values : List Text, captures = values.map some ∧ values.length = names.length

theorem Compiled.getElem?_ofTemplate {mode : MatchMode} {content : Text} {index : Nat}
    {pattern : Pattern} {names : List Text}
    (searched : (ofTemplate mode content).patterns[index]? = some pattern)
    (named : (ofTemplate mode content).names[index]? = some names) :
    ∃ passage : Passage, pattern = passage.pattern mode ∧ names = passage.names := by
  simp only [ofTemplate, List.getElem?_map, Option.map_eq_some_iff] at searched named
  obtain ⟨passage, placed, rfl⟩ := searched
  obtain ⟨other, placed', rfl⟩ := named
  cases placed.symm.trans placed'
  exact ⟨passage, rfl, rfl⟩

theorem Compiled.wellFormed_ofTemplate (mode : MatchMode) (content : Text) :
    (ofTemplate mode content).WellFormed where
  paired := by simp only [ofTemplate, List.length_map]
  written index pattern names searched named := by
    obtain ⟨passage, rfl, rfl⟩ := getElem?_ofTemplate searched named
    refine ⟨Notation.signs?_source _, ?_, List.Nodup.map Notation.groupName_injective List.nodup_range⟩
    rw [Notation.groups?_source, passage.groups_pattern]
  captured index pattern names searched named text captures matched := by
    obtain ⟨passage, rfl, rfl⟩ := getElem?_ofTemplate searched named
    exact Passage.captures_of_search? matched

/-- Lenient compilation of a template always succeeds, and what it makes is well formed: one pattern for
the whole template or one for each line that is not blank, and names to each. Whatever text stands
between placeholders, reading the written patterns finds their own pieces and refuses nothing. No
pattern and no list of names is left out when they are paired, and extraction fails on no text,
whichever searches are given up. -/
theorem compiled_templates_are_well_formed (mode : MatchMode) (content : Text) (label : String) :
    ∃ compiled, (Compiled.compile mode false label content).outcome = .ok compiled ∧
      compiled.WellFormed ∧
      compiled.patterns.length =
        (match mode with
        | .whole => 1
        | .line => content.lines.countP fun line => !line.all Text.isBlank) ∧
      (compiled.patterns.zip compiled.names).unzip = (compiled.patterns, compiled.names) ∧
      (∀ (cutoff : Cutoff) (source : String) (text : Text),
        ∃ result, compiled.extract cutoff source text = .ok result) ∧
      ∀ (extractor : Extractor) (cutoff : Cutoff) (text : Text) (asked : Option MatchMode)
        (source : String), extractor.strict = false → asked.getD extractor.mode = mode →
        ∃ result, (extractor.extractText cutoff text content asked source).outcome = .ok result := by
  have compiles := Compiled.outcome_compile_lenient mode label content
  have formed := Compiled.wellFormed_ofTemplate mode content
  have extracts (cutoff : Cutoff) (source : String) (text : Text) :
      ∃ result, (Compiled.ofTemplate mode content).extract cutoff source text = .ok result := by
    obtain ⟨result, extracted, -⟩ := Compiled.exists_extract cutoff source
      (Compiled.not_lacksGroup_of_compile compiles text)
    exact ⟨result, extracted⟩
  refine ⟨_, compiles, formed, ?_, List.unzip_zip formed.paired, extracts, ?_⟩
  · rw [← mode.length_units content, Compiled.ofTemplate, List.length_map, MatchMode.passages,
      List.length_map]
  · intro extractor cutoff text asked source lenient isMode
    obtain ⟨result, extracted⟩ := extracts cutoff source (mode.normalize text)
    refine ⟨result, ?_⟩
    rw [Extractor.outcome_extractText, lenient, isMode, Compiled.outcome_compile_lenient]
    simp only [extracted]

-- Text that looks like a group, like a class and like a repetition, around placeholders.
example :
    Notation.groups? ((Passage.ofText "(?P<_p0>.*) [x]+\\{%A%}\\\x7b%{%B%}*".toList).pattern
      .line).source = some ["_p0".toList, "_p1".toList] := by
  decide +kernel

end Stencil
