import Stencil.Proofs.Calling

/-! What a parse command says.

A command line is read from the left into operands, options and their values. It has at most one
such reading. Every line that is accepted has one, and what is drawn from the line is what the
reading says: the last value given counts, and an empty path counts as none.
-/

set_option autoImplicit false

namespace Stencil.CommandLine

/-! ## Readings -/

inductive Item where
  | operand (text : String)
  | all
  | option (flag : Flag) (value : String)
  deriving DecidableEq, Repr

def Flag.takesValue : Flag → Bool
  | template | directory | mode => true
  | help | tryAll => false

/-- The arguments of a parse command, read from the left. The value of an option is attached to it
or is the next argument; behind two hyphens all are operands. -/
inductive Written : List String → List Item → Prop where
  | nil : Written [] []
  | separator (rest : List String) : Written ("--" :: rest) (rest.map .operand)
  | operand {argument : String} {rest : List String} {items : List Item}
    (isOperand : IsOperand argument) (written : Written rest items) :
    Written (argument :: rest) (.operand argument :: items)
  | all {argument : String} {rest : List String} {items : List Item}
    (calls : Calls argument .tryAll none) (written : Written rest items) :
    Written (argument :: rest) (.all :: items)
  | attached {argument value : String} {flag : Flag} {rest : List String} {items : List Item}
    (takes : flag.takesValue = true) (calls : Calls argument flag (some value))
    (written : Written rest items) : Written (argument :: rest) (.option flag value :: items)
  | apart {argument value : String} {flag : Flag} {rest : List String} {items : List Item}
    (takes : flag.takesValue = true) (calls : Calls argument flag none)
    (isOperand : IsOperand value) (written : Written rest items) :
    Written (argument :: value :: rest) (.option flag value :: items)

def operands (items : List Item) : List String :=
  items.filterMap fun item =>
    match item with
    | .operand text => some text
    | _ => none

def values (flag : Flag) (items : List Item) : List String :=
  items.filterMap fun item =>
    match item with
    | .option own value => if own = flag then some value else none
    | _ => none

/-- The value of an option that counts: the last. -/
def lastValue? (flag : Flag) (items : List Item) : Option String :=
  (values flag items).getLast?

theorem Written.unique {arguments : List String} {items others : List Item}
    (first : Written arguments items) (second : Written arguments others) : items = others := by
  induction first generalizing others with
  | nil =>
    cases second
    rfl
  | separator rest =>
    cases second with
    | separator => rfl
    | operand isOperand => exact absurd isOperand not_isOperand_separator
    | all calls => exact absurd calls not_calls_separator
    | attached _ calls => exact absurd calls not_calls_separator
    | apart _ calls => exact absurd calls not_calls_separator
  | operand isOperand _ ih =>
    cases second with
    | separator => exact absurd isOperand not_isOperand_separator
    | operand _ written => rw [ih written]
    | all calls => exact absurd calls (isOperand.callsNone _ _)
    | attached _ calls => exact absurd calls (isOperand.callsNone _ _)
    | apart _ calls => exact absurd calls (isOperand.callsNone _ _)
  | all calls _ ih =>
    cases second with
    | separator => exact absurd calls not_calls_separator
    | operand isOperand => exact absurd calls (isOperand.callsNone _ _)
    | all _ written => rw [ih written]
    | attached _ others => exact absurd (calls.unique others).2 (by simp)
    | apart takes others => exact absurd takes (by rw [← (calls.unique others).1]; decide)
  | attached takes calls _ ih =>
    cases second with
    | separator => exact absurd calls not_calls_separator
    | operand isOperand => exact absurd calls (isOperand.callsNone _ _)
    | all others => exact absurd (calls.unique others).2 (by simp)
    | attached _ others written =>
      obtain ⟨rfl, same⟩ := calls.unique others
      rw [Option.some.inj same, ih written]
    | apart _ others => exact absurd (calls.unique others).2 (by simp)
  | apart takes calls _ _ ih =>
    cases second with
    | separator => exact absurd calls not_calls_separator
    | operand isOperand => exact absurd calls (isOperand.callsNone _ _)
    | all others => exact absurd takes (by rw [(calls.unique others).1]; decide)
    | attached _ others => exact absurd (calls.unique others).2 (by simp)
    | apart _ others _ written =>
      obtain ⟨rfl, -⟩ := calls.unique others
      rw [ih written]

/-! ## What the reader draws from a line -/

theorem values_option (flag own : Flag) (value : String) (items : List Item) :
    values flag (.option own value :: items) =
      if own = flag then value :: values flag items else values flag items := by
  unfold values
  rw [List.filterMap_cons]
  split
  · rename_i other
    rw [if_neg (by simpa using other)]
  · rename_i same
    obtain ⟨rfl, rfl⟩ : own = flag ∧ value = _ := by simpa using same
    rw [if_pos rfl]

theorem lastValue?_option_or (flag own : Flag) (value : String) (items : List Item)
    (earlier : Option String) :
    (lastValue? flag (.option own value :: items)).or earlier =
      (lastValue? flag items).or (if own = flag then some value else earlier) := by
  unfold lastValue?
  rw [values_option]
  split
  · rw [List.getLast?_cons, Option.some_or, Option.or_some]
  · rfl

theorem ne_help_of_takesValue {flag : Flag} (takes : flag.takesValue = true) : flag ≠ .help := by
  rintro rfl
  cases takes

theorem fields_of_assign {draft next : Draft} {flag : Flag} {value : String}
    (assigned : draft.assign flag value = .ok next) :
    flag.takesValue = true ∧ next.excess = draft.excess ∧ next.input = draft.input ∧
      next.tryAll = draft.tryAll ∧
      next.template = (if flag = .template then some value else draft.template) ∧
      next.directory = (if flag = .directory then some value else draft.directory) ∧
      next.mode.map MatchMode.name =
        if flag = .mode then some value else draft.mode.map MatchMode.name := by
  unfold Draft.assign at assigned
  split at assigned
  · split at assigned <;> cases assigned
    simp [Flag.takesValue]
  · split at assigned <;> cases assigned
    simp [Flag.takesValue]
  · split at assigned
    · rename_i named
      cases assigned
      simp [Flag.takesValue, MatchMode.eq_name_of_ofName? named]
    · cases assigned
  · cases assigned
  · cases assigned

/-- What has been drawn from a line when a reading of the rest of it is added to a draft. -/
structure Gathers (draft : Draft) (items : List Item) (result : Draft) : Prop where
  complete : draft.excess = false
  input : draft.input.toList ++ operands items = result.input.toList
  template : (lastValue? .template items).or draft.template = result.template
  directory : (lastValue? .directory items).or draft.directory = result.directory
  mode : (lastValue? .mode items).or (draft.mode.map MatchMode.name) =
    result.mode.map MatchMode.name
  tryAll : draft.tryAll = true ∨ .all ∈ items ↔ result.tryAll = true

namespace Gathers

variable {draft next result : Draft} {items : List Item}

theorem nil (complete : draft.excess = false) : Gathers draft [] draft :=
  ⟨complete, List.append_nil _, rfl, rfl, rfl, by simp⟩

theorem operand {text : String} (gathers : Gathers (draft.place text) items result) :
    Gathers draft (.operand text :: items) result := by
  have complete := gathers.complete
  unfold Draft.place at complete
  split at complete
  · rename_i missing
    have placed : draft.place text = { draft with input := some text } := if_pos missing
    rw [placed] at gathers
    have isNone := Option.isNone_iff_eq_none.mp missing
    exact { gathers with
      complete := complete
      input := by rw [isNone]; exact gathers.input
      tryAll := by simpa using gathers.tryAll }
  · cases complete

theorem all (gathers : Gathers { draft with tryAll := true } items result) :
    Gathers draft (.all :: items) result :=
  { gathers with tryAll := by simpa using gathers.tryAll }

theorem option {flag : Flag} {value : String} (assigned : draft.assign flag value = .ok next)
    (gathers : Gathers next items result) : Gathers draft (.option flag value :: items) result := by
  obtain ⟨-, excess, input, tryAll, template, directory, mode⟩ := fields_of_assign assigned
  constructor
  · rw [← excess, gathers.complete]
  · rw [← input]
    exact gathers.input
  · rw [lastValue?_option_or, ← template, gathers.template]
  · rw [lastValue?_option_or, ← directory, gathers.directory]
  · rw [lastValue?_option_or, ← mode, gathers.mode]
  · rw [← tryAll, ← gathers.tryAll]
    simp

end Gathers

theorem gathers_placeAll {draft : Draft} {texts : List String}
    (complete : (draft.placeAll (texts.map .operand)).excess = false) :
    Gathers draft (texts.map .operand) (draft.placeAll (texts.map .operand)) := by
  induction texts generalizing draft with
  | nil => exact .nil complete
  | cons text rest ih => exact (ih complete).operand

theorem exists_of_bind_eq_ok {ε α β : Type} {first : Except ε α} {next : α → Except ε β}
    {result : β} (succeeds : first >>= next = .ok result) :
    ∃ value, first = .ok value ∧ next value = .ok result := by
  cases first with
  | error stop => cases succeeds
  | ok value => exact ⟨value, rfl, succeeds⟩

/-- The ways in which arguments come to be read as words. -/
inductive ReadAllAs (flags : List Flag) : List String → List Word → Prop where
  | nil : ReadAllAs flags [] []
  | separator (rest : List String) :
    ReadAllAs flags ("--" :: rest) (.separator :: rest.map .operand)
  | cons {argument : String} {rest : List String} {word : Word} {words : List Word}
    (first : classify flags argument = .ok word) (later : classifyAll flags rest = .ok words) :
    ReadAllAs flags (argument :: rest) (word :: words)

theorem readAllAs_of_classifyAll {flags : List Flag} {arguments : List String} {words : List Word}
    (classified : classifyAll flags arguments = .ok words) : ReadAllAs flags arguments words := by
  cases arguments with
  | nil =>
    cases classified
    exact .nil
  | cons argument rest =>
    unfold classifyAll at classified
    split at classified
    · rename_i separator
      cases classified
      exact separator ▸ .separator rest
    · obtain ⟨word, first, classified⟩ := exists_of_bind_eq_ok classified
      obtain ⟨others, later, same⟩ := exists_of_bind_eq_ok classified
      cases same
      exact .cons first later

theorem exists_isOperand {arguments : List String} {text : String} {words : List Word}
    (classified : classifyAll Command.parse.flags arguments = .ok (.operand text :: words)) :
    ∃ rest, arguments = text :: rest ∧ IsOperand text ∧
      classifyAll Command.parse.flags rest = .ok words := by
  cases readAllAs_of_classifyAll classified with
  | cons first later =>
    cases eq_of_classify_operand first
    exact ⟨_, rfl, isOperand_of_classify first, later⟩

theorem exists_calls {arguments : List String} {flag : Flag} {value : Option String}
    {words : List Word} (asks : flag ≠ .help)
    (classified : classifyAll Command.parse.flags arguments = .ok (.flag flag value :: words)) :
    ∃ argument rest, arguments = argument :: rest ∧ Calls argument flag value ∧
      classifyAll Command.parse.flags rest = .ok words := by
  cases readAllAs_of_classifyAll classified with
  | cons first later => exact ⟨_, _, rfl, calls_of_classify first asks, later⟩

theorem eq_of_separator {arguments : List String} {words : List Word}
    (classified : classifyAll Command.parse.flags arguments = .ok (.separator :: words)) :
    ∃ rest, arguments = "--" :: rest ∧ words = rest.map .operand := by
  cases readAllAs_of_classifyAll classified with
  | separator rest => exact ⟨rest, rfl, rfl⟩
  | cons first => cases readAs_of_classify first

theorem exists_written_apart {arguments : List String} {words : List Word} {draft result : Draft}
    {flag : Flag} {value : String} (takes : flag.takesValue = true)
    (classified : classifyAll Command.parse.flags arguments =
      .ok (.flag flag none :: .operand value :: words))
    (reads : (draft.assign flag value >>= fun next => next.read words) = .ok result)
    (later : ∀ (next : Draft) {rest : List String},
      classifyAll Command.parse.flags rest = .ok words → next.read words = .ok result →
        ∃ items, Written rest items ∧ Gathers next items result) :
    ∃ items, Written arguments items ∧ Gathers draft items result := by
  obtain ⟨next, assigned, reads⟩ := exists_of_bind_eq_ok reads
  obtain ⟨argument, behind, rfl, calls, others⟩ :=
    exists_calls (ne_help_of_takesValue takes) classified
  obtain ⟨rest, rfl, isOperand, others⟩ := exists_isOperand others
  obtain ⟨items, written, gathers⟩ := later next others reads
  exact ⟨_, .apart takes calls isOperand written, gathers.option assigned⟩

/-- Every line that is read to the end without an argument too many has a reading, and the reader
draws from the line what the reading says. -/
theorem exists_written_of_read {arguments : List String} {words : List Word} {draft result : Draft}
    (classified : classifyAll Command.parse.flags arguments = .ok words)
    (reads : draft.read words = .ok result) (complete : result.excess = false) :
    ∃ items, Written arguments items ∧ Gathers draft items result := by
  induction draft, words using Draft.read.induct generalizing arguments with
  | case1 draft =>
    cases reads
    cases readAllAs_of_classifyAll classified
    exact ⟨[], .nil, .nil complete⟩
  | case2 draft words =>
    obtain ⟨rest, rfl, rfl⟩ := eq_of_separator classified
    rw [Draft.read] at reads
    cases reads
    obtain ⟨missing, placed⟩ := Bool.or_eq_false_iff.mp complete
    have same : { draft.placeAll (rest.map .operand) with excess := false } =
        draft.placeAll (rest.map .operand) := by rw [← placed]
    rw [missing, placed, Bool.false_or, same]
    exact ⟨_, .separator rest, gathers_placeAll placed⟩
  | case3 draft text words =>
    obtain ⟨others, rfl, isOperand, behind⟩ := exists_isOperand classified
    obtain ⟨rest, rfl, rfl⟩ := eq_of_separator behind
    rw [Draft.read] at reads
    cases reads
    exact ⟨_, .operand isOperand (.separator rest), (gathers_placeAll complete).operand⟩
  | case4 draft text words apart ih =>
    obtain ⟨rest, rfl, isOperand, later⟩ := exists_isOperand classified
    rw [Draft.read] at reads
    · obtain ⟨items, written, gathers⟩ := ih later reads
      exact ⟨_, .operand isOperand written, gathers.operand⟩
    · exact apart
  | case5 draft words ih =>
    cases readAllAs_of_classifyAll classified with
    | cons _ later =>
      obtain ⟨_, -, gathers⟩ := ih later reads
      exact absurd gathers.complete (by simp)
  | case6 draft flag value words ih =>
    rw [Draft.read] at reads
    obtain ⟨next, assigned, later⟩ := exists_of_bind_eq_ok reads
    have takes := (fields_of_assign assigned).1
    obtain ⟨argument, rest, rfl, calls, others⟩ :=
      exists_calls (ne_help_of_takesValue takes) classified
    obtain ⟨items, written, gathers⟩ := ih next others later
    exact ⟨_, .attached takes calls written, gathers.option assigned⟩
  | case7 draft value words ih => exact exists_written_apart rfl classified reads ih
  | case8 draft value words ih => exact exists_written_apart rfl classified reads ih
  | case9 draft value words ih => exact exists_written_apart rfl classified reads ih
  | case10 draft flag words noTemplate noDirectory noMode ih =>
    rw [Draft.read] at reads
    · obtain ⟨next, enabled, later⟩ := exists_of_bind_eq_ok reads
      unfold Draft.enable at enabled
      split at enabled
      · cases enabled
      · cases enabled
        obtain ⟨argument, rest, rfl, calls, others⟩ := exists_calls (by decide) classified
        obtain ⟨items, written, gathers⟩ := ih _ others later
        exact ⟨_, .all calls written, gathers.all⟩
      · cases enabled
    · exact noTemplate
    · exact noDirectory
    · exact noMode

/-! ## Requests -/

/-- An option is given a path. An empty one counts as none. -/
def GivesPath (flag : Flag) (items : List Item) (path : String) : Prop :=
  lastValue? flag items = some path ∧ path ≠ ""

/-- What a reading says, part by part of a request to parse. -/
structure Demands (items : List Item) (input : String) (template directory : Option String)
    (tryAll : Bool) (mode : Option MatchMode) : Prop where
  input : operands items = [input]
  template : ∀ path, template = some path ↔ GivesPath .template items path
  directory : ∀ path, directory = some path ↔ GivesPath .directory items path
  tryAll : tryAll = true ↔ .all ∈ items
  mode : mode.map MatchMode.name = lastValue? .mode items

theorem nonempty_lastValue?_iff (flag : Flag) (items : List Item) (path : String) :
    nonempty (lastValue? flag items) = some path ↔ GivesPath flag items path := by
  rw [nonempty, Option.filter_eq_some_iff, bne_iff_ne, GivesPath]

theorem exists_draft_of_request {command : Command} {arguments : List String} {request : Request}
    (accepted : command.request arguments = .ok request) :
    ∃ words draft, classifyAll command.flags arguments = .ok words ∧
      Draft.read {} words = .ok draft ∧ draft.request command = .ok request := by
  unfold Command.request at accepted
  split at accepted
  · cases accepted
  · rename_i words classified
    obtain ⟨draft, reads, asks⟩ := exists_of_bind_eq_ok accepted
    exact ⟨words, draft, classified, reads, asks⟩

theorem request_eq_ok_parse_iff {draft : Draft} {command : Command} {input : String}
    {template directory : Option String} {tryAll : Bool} {mode : Option MatchMode} :
    draft.request command = .ok (.parse input template directory tryAll mode) ↔
      command = .parse ∧ draft.input = some input ∧ draft.excess = false ∧
        nonempty draft.template = template ∧ nonempty draft.directory = directory ∧
        draft.tryAll = tryAll ∧ draft.mode = mode := by
  unfold Draft.request
  cases draft.input with
  | none => simp
  | some own =>
    cases draft.excess with
    | true => simp
    | false => cases command <;> simp

theorem exists_command_of_ofArguments {arguments : List String} {request : Request}
    (accepted : Request.ofArguments arguments = .ok request) :
    ∃ name rest command, arguments = name :: rest ∧ Command.ofName? name = some command ∧
      command.request rest = .ok request := by
  cases arguments with
  | nil => cases accepted
  | cons argument rest =>
    unfold Request.ofArguments at accepted
    split at accepted
    · cases accepted
    · split at accepted
      · cases accepted
      · rename_i name isOperand
        cases eq_of_classify_operand isOperand
        split at accepted
        · rename_i command named
          exact ⟨argument, rest, command, rfl, named, accepted⟩
        · cases accepted
      · cases accepted
      · cases accepted
      · -- An unknown option in front is refused even when the rest could be accepted.
        split at accepted <;> cases accepted

theorem eq_parse_of_ofName? {name : String} (named : Command.ofName? name = some .parse) :
    name = "parse" := by
  unfold Command.ofName? at named
  split at named
  · assumption
  · split at named <;> cases named

/-- Every command line that is accepted as one to parse has a reading, and the request is what the
reading says. -/
theorem exists_written_of_ofArguments {arguments : List String} {input : String}
    {template directory : Option String} {tryAll : Bool} {mode : Option MatchMode}
    (accepted : Request.ofArguments arguments = .ok (.parse input template directory tryAll mode)) :
    ∃ rest items, arguments = "parse" :: rest ∧ Written rest items ∧
      Demands items input template directory tryAll mode := by
  obtain ⟨name, rest, command, rfl, named, accepted⟩ := exists_command_of_ofArguments accepted
  obtain ⟨words, draft, classified, reads, accepted⟩ := exists_draft_of_request accepted
  obtain ⟨rfl, isInput, complete, rfl, rfl, rfl, rfl⟩ := request_eq_ok_parse_iff.mp accepted
  obtain ⟨items, written, gathers⟩ := exists_written_of_read classified reads complete
  have template : lastValue? .template items = draft.template :=
    Option.or_none.symm.trans gathers.template
  have directory : lastValue? .directory items = draft.directory :=
    Option.or_none.symm.trans gathers.directory
  refine ⟨rest, items, by rw [eq_parse_of_ofName? named], written, ?_, ?_, ?_, ?_, ?_⟩
  · have input := gathers.input
    rw [isInput] at input
    exact input
  · rw [← template]
    exact nonempty_lastValue?_iff _ _
  · rw [← directory]
    exact nonempty_lastValue?_iff _ _
  · rw [← gathers.tryAll]
    simp
  · rw [← gathers.mode]
    exact Option.or_none

end Stencil.CommandLine
