import Stencil.Json
import Stencil.Text.Encoding.Utf16

/-! Reading JSON objects whose members are strings.

The reader takes any such object, with blanks between its tokens and every escape that strings may
have. What is written is read back: the same members in the same order, whatever characters their
names and values have.
-/

set_option autoImplicit false

namespace Stencil.Json

/-! ## Tokens -/

inductive Token where
  | opening
  | closing
  | colon
  | comma
  | string (text : Text)
  deriving DecidableEq, Repr

def isSpace (c : Char) : Bool :=
  c = ' ' || c = '\t' || c = '\n' || c = '\r'

def punctuation : List (Char × Token) :=
  [('\x7b', .opening), ('\x7d', .closing), (':', .colon), (',', .comma)]

/-- What letters stand for after a backslash. -/
def letters : List (Char × Char) :=
  [('"', '"'), ('\\', '\\'), ('/', '/'), ('b', '\x08'), ('f', '\x0c'), ('n', '\n'), ('r', '\r'),
    ('t', '\t')]

def hexValue? (c : Char) : Option Nat :=
  if '0' ≤ c ∧ c ≤ '9' then some (c.toNat - '0'.toNat)
  else if 'a' ≤ c ∧ c ≤ 'f' then some (c.toNat - 'a'.toNat + 10)
  else if 'A' ≤ c ∧ c ≤ 'F' then some (c.toNat - 'A'.toNat + 10)
  else none

def hexNumber? (digits : Text) : Option Nat :=
  digits.foldlM (fun number c => (hexValue? c).map (number * 16 + ·)) 0

/-- The character behind a high and a low surrogate. -/
def paired (high low : Nat) : Char :=
  Char.ofNat (0x10000 + (high - 0xD800) * 0x400 + (low - 0xDC00))

/-- Takes a text apart, between tokens or inside a string of which some characters, the last one
first, have been read. Escaped surrogates have to come in pairs. -/
def lex : Option Text → Text → Option (List Token)
  | none, [] => some []
  | some _, [] => none
  | none, c :: rest =>
    if isSpace c then lex none rest
    else if c = '"' then lex (some []) rest
    else
      match punctuation.lookup c with
      | some token => (lex none rest).map (token :: ·)
      | none => none
  | some read, c :: rest =>
    if c = '"' then (lex none rest).map (.string read.reverse :: ·)
    else if c = '\\' then
      match rest with
      | 'u' :: first :: second :: third :: fourth :: rest =>
        match hexNumber? [first, second, third, fourth] with
        | none => none
        | some unit =>
          if Utf16.isHighSurrogate unit then
            match rest with
            | '\\' :: 'u' :: first :: second :: third :: fourth :: rest =>
              match (hexNumber? [first, second, third, fourth]).filter Utf16.isLowSurrogate with
              | none => none
              | some low => lex (some (paired unit low :: read)) rest
            | _ => none
          else if Utf16.isLowSurrogate unit then none
          else lex (some (Char.ofNat unit :: read)) rest
      | letter :: rest =>
        match letters.lookup letter with
        | some meant => lex (some (meant :: read)) rest
        | none => none
      | [] => none
    else if c.toNat < 0x20 then none
    else lex (some (c :: read)) rest

/-- Reads members up to the closing brace, which has to be the end. -/
def members? : List Token → Option (List (Text × Text))
  | [.string name, .colon, .string value, .closing] => some [(name, value)]
  | .string name :: .colon :: .string value :: .comma :: rest =>
    (members? rest).map ((name, value) :: ·)
  | _ => none

/-- Reads a text that is one object whose members are strings. -/
def object? (text : Text) : Option (List (Text × Text)) :=
  match lex none text with
  | some [.opening, .closing] => some []
  | some (.opening :: tokens) => members? tokens
  | _ => none

/-! ## Reading back what was written -/

theorem lex_quote (read rest : Text) :
    lex (some read) ('"' :: rest) = (lex none rest).map (.string read.reverse :: ·) := by
  rw [lex.eq_def]
  exact if_pos rfl

theorem lex_plain (read rest : Text) {c : Char} (notQuote : c ≠ '"') (notBackslash : c ≠ '\\')
    (notControl : ¬ c.toNat < 0x20) :
    lex (some read) (c :: rest) = lex (some (c :: read)) rest := by
  rw [lex.eq_def]
  dsimp only
  rw [if_neg notQuote, if_neg notBackslash, if_neg notControl]

theorem lex_letter (read rest : Text) {letter meant : Char}
    (known : letters.lookup letter = some meant) :
    lex (some read) ('\\' :: letter :: rest) = lex (some (meant :: read)) rest := by
  have notUnit : letter ≠ 'u' := by
    rintro rfl
    have unknown : letters.lookup 'u' = none := by decide
    exact nomatch unknown.symm.trans known
  rw [lex.eq_def]
  dsimp only
  rw [if_neg (by decide), if_pos rfl]
  split
  · rename_i same
    exact absurd (List.cons.inj same).1 notUnit
  · rename_i same
    obtain ⟨rfl, rfl⟩ := List.cons.inj same
    rw [known]
  · rename_i same
    exact absurd same (by simp)

theorem lex_control (read rest : Text) {c : Char} (control : c.toNat < 0x20) :
    lex (some read) ('\\' :: 'u' :: (Text.hexDigits 4 c.toNat ++ rest)) =
      lex (some (c :: read)) rest := by
  -- There are only so many controls; which digits their numbers have does not matter.
  have numbers : ∀ n < 0x20, hexNumber? (Text.hexDigits 4 n) = some n := by decide
  have number := numbers c.toNat control
  have notHigh : Utf16.isHighSurrogate c.toNat = false := by
    simp [Utf16.isHighSurrogate]
    omega
  have notLow : Utf16.isLowSurrogate c.toNat = false := by
    simp [Utf16.isLowSurrogate]
    omega
  simp only [Text.hexDigits, List.nil_append, List.cons_append] at number ⊢
  rw [lex.eq_def]
  dsimp only
  rw [if_neg (by decide), if_pos rfl]
  simp only [number, notHigh, notLow, Bool.false_eq_true, if_false, Char.ofNat_toNat]

theorem lex_escaped (read rest : Text) (c : Char) :
    lex (some read) (escaped c ++ rest) = lex (some (c :: read)) rest := by
  unfold escaped
  split
  · rename_i special
    have known : letters.lookup c = some c := by
      rcases Bool.or_eq_true_iff.mp special with isQuote | isBackslash
      · rw [of_decide_eq_true isQuote]
        decide
      · rw [of_decide_eq_true isBackslash]
        decide
    exact lex_letter read rest known
  · rename_i ordinary
    split
    · rename_i letter isLetter
      have inverse : ∀ pair ∈ controlLetters, letters.lookup pair.2 = some pair.1 := by decide
      obtain ⟨before, after, split, -⟩ := List.lookup_eq_some_iff.mp isLetter
      have member : (c, letter) ∈ controlLetters := by
        rw [split]
        exact List.mem_append_right before List.mem_cons_self
      exact lex_letter read rest (inverse (c, letter) member)
    · split
      · rename_i control
        exact lex_control read rest control
      · rename_i notControl
        obtain ⟨notQuote, notBackslash⟩ : c ≠ '"' ∧ c ≠ '\\' := by simpa using ordinary
        exact lex_plain read rest notQuote notBackslash notControl

theorem lex_body (read text rest : Text) :
    lex (some read) (text.flatMap escaped ++ '"' :: rest) =
      (lex none rest).map (.string (read.reverse ++ text) :: ·) := by
  induction text generalizing read with
  | nil => rw [List.flatMap_nil, List.nil_append, lex_quote, List.append_nil]
  | cons c text ih =>
    rw [List.flatMap_cons, List.append_assoc, lex_escaped, ih, List.reverse_cons,
      List.append_assoc, List.singleton_append]

theorem lex_space (rest : Text) {c : Char} (space : isSpace c = true) :
    lex none (c :: rest) = lex none rest := by
  rw [lex.eq_def]
  exact if_pos space

theorem lex_blanks {blanks : Text} (spaces : ∀ c ∈ blanks, isSpace c = true) (rest : Text) :
    lex none (blanks ++ rest) = lex none rest := by
  induction blanks with
  | nil => rfl
  | cons c blanks ih =>
    obtain ⟨here, later⟩ := List.forall_mem_cons.mp spaces
    rw [List.cons_append, lex_space _ here, ih later]

theorem lex_token (rest : Text) {c : Char} (token : Token)
    (known : (c, token) ∈ punctuation) :
    lex none (c :: rest) = (lex none rest).map (token :: ·) := by
  have marks : ∀ mark ∈ punctuation, isSpace mark.1 = false ∧ mark.1 ≠ '"' ∧
      punctuation.lookup mark.1 = some mark.2 := by decide
  obtain ⟨notSpace, notQuote, isToken⟩ := marks (c, token) known
  dsimp only at notSpace notQuote isToken
  rw [lex.eq_def]
  dsimp only
  rw [if_neg (by simp [notSpace]), if_neg notQuote, isToken]

theorem lex_string (text rest : Text) :
    lex none (string text ++ rest) = (lex none rest).map (.string text :: ·) := by
  have opened : lex none (string text ++ rest) =
      lex (some []) (text.flatMap escaped ++ '"' :: rest) := by
    rw [string, List.cons_append, List.cons_append, List.append_assoc, List.singleton_append]
    rfl
  rw [opened, lex_body, List.reverse_nil, List.nil_append]

theorem lex_member (name value rest : Text) :
    lex none (member name value ++ rest) =
      (lex none rest).map fun tokens => .string name :: .colon :: .string value :: tokens := by
  have indent : ∀ c ∈ "\n  ".toList, isSpace c = true := List.all_eq_true.mp (by decide)
  have gap : ": ".toList = [':', ' '] := rfl
  unfold member
  rw [List.append_assoc, List.append_assoc, List.append_assoc, lex_blanks indent, lex_string, gap,
    List.cons_append, lex_token _ .colon (by decide), List.singleton_append, lex_space _ (by decide),
    lex_string, Option.map_map, Option.map_map]
  rfl

theorem lex_end {blanks : Text} (spaces : ∀ c ∈ blanks, isSpace c = true) :
    lex none ("\n\x7d".toList ++ blanks) = some [.closing] := by
  have behind : lex none blanks = some [] := by
    rw [← List.append_nil blanks, lex_blanks spaces]
    rfl
  have brace : "\n\x7d".toList = ['\n', '\x7d'] := rfl
  rw [brace, List.cons_append, lex_space _ (by decide), List.singleton_append,
    lex_token _ .closing (by decide), behind, Option.map_some]

/-- Members are read up to the brace at the end; only blanks may follow. -/
theorem exists_lex_members (pair : Text × Text) (more : List (Text × Text)) {blanks : Text}
    (spaces : ∀ c ∈ blanks, isSpace c = true) :
    ∃ tokens,
      lex none (List.intercalate [','] ((pair :: more).map fun (name, value) => member name value) ++
        ("\n\x7d".toList ++ blanks)) = some tokens ∧
      members? tokens = some (pair :: more) := by
  obtain ⟨name, value⟩ := pair
  induction more generalizing name value with
  | nil =>
    refine ⟨[.string name, .colon, .string value, .closing], ?_, rfl⟩
    rw [List.map_singleton, List.intercalate_singleton, lex_member, lex_end spaces, Option.map_some]
  | cons next more ih =>
    obtain ⟨nextName, nextValue⟩ := next
    obtain ⟨tokens, lexed, read⟩ := ih nextName nextValue
    refine ⟨.string name :: .colon :: .string value :: .comma :: tokens, ?_, ?_⟩
    · rw [List.map_cons] at lexed
      rw [List.map_cons, List.map_cons, List.intercalate_cons_cons, List.append_assoc, List.append_assoc, lex_member,
        List.singleton_append, lex_token _ .comma (by decide), lexed]
      rfl
    · rw [members?, read]
      rfl

theorem object?_object (members : List (Text × Text)) {blanks : Text}
    (spaces : ∀ c ∈ blanks, isSpace c = true) :
    object? (object members ++ blanks) = some members := by
  cases members with
  | nil =>
    have behind : lex none blanks = some [] := by
      rw [← List.append_nil blanks, lex_blanks spaces]
      rfl
    have braces : object [] = ['\x7b', '\x7d'] := rfl
    unfold object?
    rw [braces, List.cons_append, List.singleton_append, lex_token _ .opening (by decide),
      lex_token _ .closing (by decide), behind]
    rfl
  | cons pair more =>
    obtain ⟨tokens, lexed, read⟩ := exists_lex_members pair more spaces
    have opened : lex none (object (pair :: more) ++ blanks) = some (.opening :: tokens) := by
      unfold object
      rw [if_neg (by simp), List.cons_append, List.cons_append, List.append_assoc,
        lex_token _ .opening (by decide), lexed, Option.map_some]
    unfold object?
    rw [opened]
    split
    · rename_i same
      cases same
      exact absurd read nofun
    · rename_i same
      cases same
      exact read
    · rename_i unopened
      exact absurd rfl (unopened tokens)

end Stencil.Json
