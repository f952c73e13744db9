import Stencil.CommandLine.Arguments
import Mathlib.Data.List.Basic
import Mathlib.Data.List.Nodup

/-! Which option an argument calls.

Names, the words that abbreviate them, values behind equals signs and operands are described here
apart from the reader. Then each argument is read as what it is by that description.
-/

set_option autoImplicit false

namespace Stencil.CommandLine

def longNames : List (String × Flag) :=
  [("--help", .help), ("--template", .template), ("--templates-dir", .directory),
    ("--all", .tryAll), ("--mode", .mode)]

/-- A word names an option by its full name, or by a beginning of it that no other name has. -/
def Names (word : String) (flag : Flag) : Prop :=
  ∃ full, (full, flag) ∈ longNames ∧ word.toList <+: full.toList ∧
    (word = full ∨ ∀ other ∈ longNames, word.toList <+: other.1.toList → other = (full, flag))

/-- An argument calls an option by a word that names it; a value may follow an equals sign. -/
inductive Calls : String → Flag → Option String → Prop where
  | bare {word : String} {flag : Flag} (names : Names word flag) : Calls word flag none
  | assigning {word : String} {flag : Flag} (names : Names word flag) (value : String) :
    Calls (word ++ "=" ++ value) flag (some value)

/-- An operand begins with no hyphen, or it is the hyphen alone, a number, or a text with spaces
that calls no option. -/
structure IsOperand (argument : String) : Prop where
  plain : argument.toList.head? = some '-' →
    argument = "-" ∨ ' ' ∈ argument.toList ∨ Text.isNegativeNumber argument.toList = true
  callsNone : ∀ flag value, ¬ Calls argument flag value
  notHelp : ¬ ['-', 'h'] <+: argument.toList

/-! ## Words that call options -/

theorem Names.hyphens {word : String} {flag : Flag} (names : Names word flag) :
    ['-', '-'] <+: word.toList := by
  obtain ⟨full, member, begins, unique⟩ := names
  have hyphens : ∀ entry ∈ longNames, ['-', '-'] <+: entry.1.toList := by decide
  rcases unique with rfl | unique
  · exact hyphens _ member
  · rcases List.prefix_or_prefix_of_prefix begins (hyphens _ member) with short | long
    · -- So short a beginning would be one of every name.
      have begin (entry : String × Flag) (listed : entry ∈ longNames) : entry = (full, flag) :=
        unique entry listed (short.trans (hyphens entry listed))
      have help := begin ("--help", .help) (by decide)
      have all := begin ("--all", .tryAll) (by decide)
      exact absurd (help.trans all.symm) (by decide)
    · exact long

theorem Names.equals_not_mem {word : String} {flag : Flag} (names : Names word flag) :
    '=' ∉ word.toList := by
  obtain ⟨full, member, begins, -⟩ := names
  have plain : ∀ entry ∈ longNames, '=' ∉ entry.1.toList := by decide
  exact fun equals => plain _ member (begins.subset equals)

theorem Calls.hyphens {argument : String} {flag : Flag} {value : Option String}
    (calls : Calls argument flag value) : ['-', '-'] <+: argument.toList := by
  cases calls with
  | bare names => exact names.hyphens
  | assigning names value =>
    rw [String.toList_append, String.toList_append, List.append_assoc]
    exact names.hyphens.trans (List.prefix_append _ _)

theorem head_of_hyphens {text : Text} (hyphens : ['-', '-'] <+: text) : text.head? = some '-' := by
  obtain ⟨rest, rfl⟩ := hyphens
  rfl

theorem IsOperand.of_head {argument : String} (plain : argument.toList.head? ≠ some '-') :
    IsOperand argument := by
  refine ⟨fun hyphen => absurd hyphen plain, fun flag value calls => ?_, fun help => ?_⟩
  · exact plain (head_of_hyphens calls.hyphens)
  · obtain ⟨rest, split⟩ := help
    exact plain (by rw [← split]; rfl)

theorem splitAtEquals_append {word : Text} (plain : '=' ∉ word) (value : Text) :
    splitAtEquals (word ++ '=' :: value) = some (word, value) := by
  have all : ∀ c ∈ word, (c != '=') = true :=
    fun c member => bne_iff_ne.mpr fun same => plain (same ▸ member)
  rw [splitAtEquals, List.dropWhile_append_of_pos all, List.takeWhile_append_of_pos all]
  simp

theorem eq_append_of_splitAtEquals {argument word value : Text}
    (split : splitAtEquals argument = some (word, value)) : argument = word ++ '=' :: value := by
  unfold splitAtEquals at split
  split at split
  · cases split
  · rename_i c rest behind
    have equals : c = '=' := by
      have head := List.head?_dropWhile_not (· != '=') argument
      rw [behind] at head
      simpa using head
    cases split
    exact (List.takeWhile_append_dropWhile.symm.trans (by rw [behind, equals]))

theorem splitAtEquals_of_not_mem {argument : Text} (plain : '=' ∉ argument) :
    splitAtEquals argument = none :=
  Option.eq_none_iff_forall_ne_some.mpr fun _ split =>
    plain (eq_append_of_splitAtEquals split ▸ List.mem_append_right _ List.mem_cons_self)

theorem hyphens_of_split {argument word value : Text} (hyphens : ['-', '-'] <+: argument)
    (split : splitAtEquals argument = some (word, value)) : ['-', '-'] <+: word := by
  rw [eq_append_of_splitAtEquals split] at hyphens
  match word with
  | [] => simp at hyphens
  | [_] => simp at hyphens
  | _ :: _ :: rest => simpa using hyphens

theorem mem_spelled_iff {text : Text} {flag : Flag} :
    (text, flag) ∈ spelled Command.parse.flags ↔
      text = ['-', 'h'] ∧ flag = .help ∨ ∃ full, (full, flag) ∈ longNames ∧ text = full.toList := by
  have all : spelled Command.parse.flags =
      (['-', 'h'], .help) :: longNames.map fun entry => (entry.1.toList, entry.2) := rfl
  rw [all, List.mem_cons, List.mem_map]
  constructor
  · rintro (same | ⟨⟨full, own⟩, member, same⟩)
    · cases same
      exact .inl ⟨rfl, rfl⟩
    · cases same
      exact .inr ⟨full, member, rfl⟩
  · rintro (⟨rfl, rfl⟩ | ⟨full, member, rfl⟩)
    · exact .inl rfl
    · exact .inr ⟨_, member, rfl⟩

theorem named?_eq_some_iff {text : Text} {flag : Flag} :
    named? Command.parse.flags text = some flag ↔ (text, flag) ∈ spelled Command.parse.flags := by
  constructor
  · intro named
    obtain ⟨before, after, split, -⟩ := List.lookup_eq_some_iff.mp named
    rw [split]
    exact List.mem_append_right _ (List.mem_cons_self)
  · intro member
    have each : ∀ entry ∈ spelled Command.parse.flags,
        named? Command.parse.flags entry.1 = some entry.2 := by decide
    exact each _ member

theorem named?_eq_none_of_split {text : Text} {parts : Text × Text}
    (split : splitAtEquals text = some parts) : named? Command.parse.flags text = none := by
  have whole : ∀ entry ∈ spelled Command.parse.flags, splitAtEquals entry.1 = none := by decide
  cases named : named? Command.parse.flags text with
  | none => rfl
  | some flag =>
    exact absurd (split.symm.trans (whole _ (named?_eq_some_iff.mp named))) (by simp)

/-- The options that a word with two hyphens in front may abbreviate. -/
def beginningWith (word : Text) : List (Text × Flag) :=
  (spelled Command.parse.flags).filter fun (spelling, _) => word.isPrefixOf spelling

theorem mem_beginningWith_iff {word spelling : Text} {flag : Flag} (hyphens : ['-', '-'] <+: word) :
    (spelling, flag) ∈ beginningWith word ↔
      ∃ full, (full, flag) ∈ longNames ∧ spelling = full.toList ∧ word <+: full.toList := by
  rw [beginningWith, List.mem_filter, mem_spelled_iff, List.isPrefixOf_iff_prefix]
  constructor
  · rintro ⟨⟨rfl, -⟩ | ⟨full, member, rfl⟩, begins⟩
    · exact absurd (hyphens.trans begins) (by decide)
    · exact ⟨full, member, rfl, begins⟩
  · rintro ⟨full, member, rfl, begins⟩
    exact ⟨.inr ⟨full, member, rfl⟩, begins⟩

/-- The reader knows a name when it is a full one or no other begins like it. -/
theorem names_iff {word : String} {flag : Flag} :
    Names word flag ↔ ['-', '-'] <+: word.toList ∧
      (named? Command.parse.flags word.toList = some flag ∨
        named? Command.parse.flags word.toList = none ∧
          ∃ spelling, beginningWith word.toList = [(spelling, flag)]) := by
  constructor
  · intro names
    have hyphens := names.hyphens
    refine ⟨hyphens, ?_⟩
    obtain ⟨full, member, begins, unique⟩ := names
    cases named : named? Command.parse.flags word.toList with
    | some other =>
      rcases mem_spelled_iff.mp (named?_eq_some_iff.mp named) with ⟨short, -⟩ | ⟨own, isOwn, same⟩
      · exact absurd (short ▸ hyphens) (by decide)
      · cases String.toList_inj.mp same
        have once : ∀ one ∈ longNames, ∀ two ∈ longNames, one.1 = two.1 → one = two := by decide
        have entry : (word, other) = (full, flag) := by
          rcases unique with rfl | unique
          · exact once _ isOwn _ member rfl
          · exact unique _ isOwn (List.prefix_refl _)
        exact .inl (congrArg some (Prod.mk.inj entry).2)
    | none =>
      rcases unique with rfl | unique
      · have known := named?_eq_some_iff.mpr (mem_spelled_iff.mpr (.inr ⟨word, member, rfl⟩))
        exact absurd (named.symm.trans known) (by simp)
      · refine .inr ⟨rfl, full.toList, List.perm_singleton.mp ?_⟩
        have distinct : (spelled Command.parse.flags).Nodup := by decide
        have once : (beginningWith word.toList).Nodup := distinct.filter _
        refine (List.perm_ext_iff_of_nodup once (List.nodup_singleton _)).mpr ?_
        rintro ⟨spelling, own⟩
        rw [mem_beginningWith_iff hyphens, List.mem_singleton]
        constructor
        · rintro ⟨other, isOther, rfl, also⟩
          cases unique _ isOther also
          rfl
        · intro same
          cases same
          exact ⟨full, member, rfl, begins⟩
  · rintro ⟨hyphens, named | ⟨-, spelling, single⟩⟩
    · rcases mem_spelled_iff.mp (named?_eq_some_iff.mp named) with ⟨short, -⟩ | ⟨full, member, same⟩
      · exact absurd (short ▸ hyphens) (by decide)
      · exact ⟨full, member, same ▸ List.prefix_refl _, .inl (String.toList_inj.mp same)⟩
    · have here := (mem_beginningWith_iff hyphens).mp (single ▸ List.mem_singleton_self _)
      obtain ⟨full, member, rfl, begins⟩ := here
      refine ⟨full, member, begins, .inr fun other isOther also => ?_⟩
      have found := (mem_beginningWith_iff hyphens).mpr ⟨other.1, isOther, rfl, also⟩
      rw [single, List.mem_singleton] at found
      obtain ⟨sameName, sameFlag⟩ := Prod.mk.inj found
      exact Prod.ext (String.toList_inj.mp sameName) sameFlag

/-! ## How single arguments are read -/

section
variable {argument word value : Text}

theorem abbreviated_of_split (hyphens : ['-', '-'] <+: argument)
    (split : splitAtEquals argument = some (word, value)) :
    abbreviated Command.parse.flags argument =
      (beginningWith word).map fun (_, flag) => .flag flag (some (String.ofList value)) := by
  obtain ⟨rest, rfl⟩ := hyphens
  simp only [List.cons_append, List.nil_append] at split ⊢
  simp only [abbreviated, split, beginningWith]

theorem abbreviated_of_no_split (hyphens : ['-', '-'] <+: argument)
    (whole : splitAtEquals argument = none) :
    abbreviated Command.parse.flags argument =
      (beginningWith argument).map fun (_, flag) => .flag flag none := by
  obtain ⟨rest, rfl⟩ := hyphens
  simp only [List.cons_append, List.nil_append] at whole ⊢
  simp only [abbreviated, whole, beginningWith]

theorem eq_help_of_mem_abbreviated (single : ¬ ['-', '-'] <+: argument) {word : Word}
    (member : word ∈ abbreviated Command.parse.flags argument) :
    ∃ value, word = .flag .help value := by
  unfold abbreviated at member
  split at member
  · exact absurd (List.prefix_append ['-', '-'] _) single
  · rename_i letter value _
    obtain ⟨⟨spelling, flag⟩, isOption, rfl⟩ := List.mem_map.mp member
    obtain ⟨isSpelled, same⟩ := List.mem_filter.mp isOption
    rcases mem_spelled_iff.mp isSpelled with ⟨-, rfl⟩ | ⟨full, isLong, rfl⟩
    · exact ⟨_, rfl⟩
    · have longer : ∀ entry ∈ longNames, 2 < entry.1.toList.length := by decide
      have short := congrArg List.length (of_decide_eq_true same)
      exact absurd (longer _ isLong) (by simp [short])
  · exact absurd member List.not_mem_nil

end

theorem classify_of_calls {argument : String} {flag : Flag} {value : Option String}
    (calls : Calls argument flag value) :
    classify Command.parse.flags argument = .ok (.flag flag value) := by
  have hyphens := calls.hyphens
  have head : ¬ argument.toList.head? != some '-' := by simp [head_of_hyphens hyphens]
  have long : argument.toList ≠ ['-'] := fun short => absurd (short ▸ hyphens) (by decide)
  unfold classify
  dsimp only
  rw [if_neg head]
  cases calls with
  | bare names =>
    obtain ⟨-, known⟩ := names_iff.mp names
    have whole := splitAtEquals_of_not_mem names.equals_not_mem
    rcases known with named | ⟨unnamed, spelling, single⟩
    · rw [named]
    · rw [unnamed]
      dsimp only
      rw [if_neg long, whole, abbreviated_of_no_split hyphens whole, single]
      rfl
  | @assigning word _ names value =>
    obtain ⟨-, known⟩ := names_iff.mp names
    have split : splitAtEquals (word ++ "=" ++ value).toList =
        some (word.toList, value.toList) := by
      rw [String.toList_append, String.toList_append, List.append_assoc]
      exact splitAtEquals_append names.equals_not_mem value.toList
    have unnamed : named? Command.parse.flags (word ++ "=" ++ value).toList = none :=
      named?_eq_none_of_split split
    rw [unnamed]
    dsimp only
    rw [if_neg long, split, abbreviated_of_split hyphens split]
    rcases known with named | ⟨unnamed, spelling, single⟩
    · rw [Option.bind_some, named, Option.map_some, String.ofList_toList]
    · rw [Option.bind_some, unnamed, single, Option.map_none, List.map_cons, List.map_nil,
        String.ofList_toList]

theorem names_of_named {word : Text} {flag : Flag}
    (named : named? Command.parse.flags word = some flag) (asks : flag ≠ .help) :
    Names (String.ofList word) flag := by
  rcases mem_spelled_iff.mp (named?_eq_some_iff.mp named) with ⟨-, help⟩ | ⟨full, member, rfl⟩
  · exact absurd help asks
  · rw [String.ofList_toList]
    exact ⟨full, member, List.prefix_refl _, .inl rfl⟩

theorem calls_of_split {argument : String} {word value : Text} {flag : Flag}
    (split : splitAtEquals argument.toList = some (word, value))
    (names : Names (String.ofList word) flag) :
    Calls argument flag (some (String.ofList value)) := by
  have parts : argument = String.ofList word ++ "=" ++ String.ofList value := by
    rw [← String.toList_inj, eq_append_of_splitAtEquals split]
    simp
  rw [parts]
  exact .assigning names _

theorem flag_of_mem_abbreviated {flags : List Flag} {argument : Text} {word : Word}
    (member : word ∈ abbreviated flags argument) : ∃ flag value, word = .flag flag value := by
  unfold abbreviated at member
  split at member
  · obtain ⟨entry, -, rfl⟩ := List.mem_map.mp member
    exact ⟨_, _, rfl⟩
  · obtain ⟨entry, -, rfl⟩ := List.mem_map.mp member
    exact ⟨_, _, rfl⟩
  · exact absurd member List.not_mem_nil

/-- The ways in which an argument comes to be read as a word. -/
inductive ReadAs (flags : List Flag) (argument : String) : Word → Prop where
  | plain (other : argument.toList.head? ≠ some '-') : ReadAs flags argument (.operand argument)
  | named {flag : Flag} (named : named? flags argument.toList = some flag) :
    ReadAs flags argument (.flag flag none)
  | hyphen (alone : argument = "-") : ReadAs flags argument (.operand argument)
  | assigned {word value : Text} {flag : Flag}
    (split : splitAtEquals argument.toList = some (word, value))
    (named : named? flags word = some flag) :
    ReadAs flags argument (.flag flag (some (String.ofList value)))
  | abbreviated {flag : Flag} {value : Option String}
    (unnamed : named? flags argument.toList = none)
    (unassigned : ∀ word after, splitAtEquals argument.toList = some (word, after) →
      named? flags word = none)
    (single : abbreviated flags argument.toList = [.flag flag value]) :
    ReadAs flags argument (.flag flag value)
  | unlike (unknown : abbreviated flags argument.toList = [])
    (text : Text.isNegativeNumber argument.toList = true ∨ ' ' ∈ argument.toList) :
    ReadAs flags argument (.operand argument)
  | unknown : ReadAs flags argument .unknownFlag

theorem readAs_of_classify {flags : List Flag} {argument : String} {word : Word}
    (classified : classify flags argument = .ok word) : ReadAs flags argument word := by
  unfold classify at classified
  dsimp only at classified
  split at classified
  · rename_i other
    cases classified
    exact .plain (by simpa using other)
  · split at classified
    · rename_i named
      cases classified
      exact .named named
    · rename_i unnamed
      split at classified
      · rename_i alone
        cases classified
        exact .hyphen (String.toList_inj.mp alone)
      · split at classified
        · rename_i assigned
          cases classified
          obtain ⟨⟨word, after⟩, split, named⟩ := Option.bind_eq_some_iff.mp assigned
          obtain ⟨flag, isNamed, rfl⟩ := Option.map_eq_some_iff.mp named
          exact .assigned split isNamed
        · rename_i unassigned single
          cases classified
          obtain ⟨flag, value, rfl⟩ :=
            flag_of_mem_abbreviated (single ▸ List.mem_singleton_self word)
          refine .abbreviated unnamed (fun word after split => ?_) single
          rw [split, Option.bind_some] at unassigned
          exact Option.map_eq_none_iff.mp unassigned
        · cases classified
        · rename_i unknown
          split at classified
          · rename_i text
            cases classified
            exact .unlike unknown (by simpa using text)
          · cases classified
            exact .unknown

/-- What is read as an option calls it, but for the help that a command may be asked for. -/
theorem calls_of_classify {argument : String} {flag : Flag} {value : Option String}
    (classified : classify Command.parse.flags argument = .ok (.flag flag value))
    (asks : flag ≠ .help) : Calls argument flag value := by
  cases readAs_of_classify classified with
  | named named =>
    have names := names_of_named named asks
    rw [String.ofList_toList] at names
    exact .bare names
  | assigned split named => exact calls_of_split split (names_of_named named asks)
  | abbreviated unnamed unassigned single =>
    by_cases hyphens : ['-', '-'] <+: argument.toList
    · cases split : splitAtEquals argument.toList with
      | none =>
        rw [abbreviated_of_no_split hyphens split] at single
        obtain ⟨⟨spelling, own⟩, only, same⟩ := List.map_eq_singleton_iff.mp single
        cases same
        exact .bare (names_iff.mpr ⟨hyphens, .inr ⟨unnamed, spelling, only⟩⟩)
      | some parts =>
        obtain ⟨word, after⟩ := parts
        rw [abbreviated_of_split hyphens split] at single
        obtain ⟨⟨spelling, own⟩, only, same⟩ := List.map_eq_singleton_iff.mp single
        cases same
        refine calls_of_split split (names_iff.mpr ?_)
        rw [String.toList_ofList]
        exact ⟨hyphens_of_split hyphens split, .inr ⟨unassigned word after split, spelling, only⟩⟩
    · obtain ⟨other, same⟩ :=
        eq_help_of_mem_abbreviated hyphens (single ▸ List.mem_singleton_self _)
      cases same
      exact absurd rfl asks

theorem eq_of_classify_operand {flags : List Flag} {argument text : String}
    (classified : classify flags argument = .ok (.operand text)) : text = argument := by
  cases readAs_of_classify classified <;> rfl

theorem isOperand_of_classify {argument text : String}
    (classified : classify Command.parse.flags argument = .ok (.operand text)) :
    IsOperand argument := by
  have callsNone (flag : Flag) (value : Option String) : ¬ Calls argument flag value := fun calls =>
    absurd (classified.symm.trans (classify_of_calls calls)) (by simp)
  cases readAs_of_classify classified with
  | plain other => exact .of_head other
  | hyphen alone => exact ⟨fun _ => .inl alone, callsNone, by rw [alone]; decide⟩
  | unlike unknown text =>
    refine ⟨fun _ => .inr text.symm, callsNone, fun help => ?_⟩
    obtain ⟨rest, split⟩ := help
    rw [← split] at unknown
    exact absurd unknown (List.cons_ne_nil _ _)

theorem Calls.unique {argument : String} {flag other : Flag} {value own : Option String}
    (first : Calls argument flag value) (second : Calls argument other own) :
    flag = other ∧ value = own := by
  have same := (classify_of_calls first).symm.trans (classify_of_calls second)
  simpa using same

theorem not_isOperand_separator : ¬ IsOperand "--" := by
  intro operand
  rcases operand.plain (by decide) with alone | space | number
  · exact absurd alone (by decide)
  · exact absurd space (by decide)
  · exact absurd number (by decide)

theorem not_calls_separator {flag : Flag} {value : Option String} : ¬ Calls "--" flag value := by
  intro calls
  have ambiguous : classify Command.parse.flags "--" = .error (.ambiguous "--") := by decide
  exact absurd ((classify_of_calls calls).symm.trans ambiguous) (by simp)

end Stencil.CommandLine
