import Stencil.CommandLine.Run
import Stencil.Proofs.Directory
import Stencil.Proofs.Invocation
import Stencil.Proofs.JsonReading

/-! What a parse command comes to.

The reading of an accepted command line names the input; its options say where templates come from
and how they are matched, and the settings say it where the options do not. Once the input and the
templates are there, nothing can fail any more but a template that is malformed. So the exit code
tells what the extraction came to, and what is printed can be read back.
-/

set_option autoImplicit false

namespace Stencil

/-! ## What extraction can come to -/

/-- Values were extracted or not, or a template was malformed; nothing else happened. -/
inductive Answers : Except Failure (Option Extraction) → Prop where
  | ok (extraction : Option Extraction) : Answers (.ok extraction)
  | malformed (source : String) (fragment : Text) : Answers (.error (.malformed source fragment))

namespace Compiled

theorem exists_collect (mode : MatchMode) (text : Text) (cutoff : Cutoff) (passages : List Passage)
    (bindings : Bindings) :
    ∃ collected, collect mode text cutoff
      ((passages.map (Passage.pattern mode)).zip (passages.map Passage.names)) bindings =
        .ok collected := by
  induction passages generalizing cutoff bindings with
  | nil => exact ⟨bindings, rfl⟩
  | cons passage rest ih =>
    simp only [List.map_cons, List.zip_cons_cons]
    rw [collect, Passage.search?_eq_values?]
    cases cutoff 0 with
    | true => exact ih _ bindings
    | false =>
      cases captured : passage.values? mode text with
      | none => exact ih _ bindings
      | some values =>
        have recorded := Bindings.record_some bindings passage.names values
          (Passage.length_values captured).ge
        simp only [Bool.false_eq_true, if_false, Option.map_some, recorded]
        exact ih _ _

theorem exists_extract_ofTemplate (mode : MatchMode) (content text : Text) (cutoff : Cutoff)
    (source : String) :
    ∃ extraction, (ofTemplate mode content).extract cutoff source text = .ok extraction := by
  obtain ⟨collected, collects⟩ :=
    exists_collect mode text cutoff (mode.passages content) .empty
  refine ⟨if collected.isEmpty then none else some ⟨collected, source⟩, ?_⟩
  simp only [extract, ofTemplate, collects]

end Compiled

namespace Extractor

variable (extractor : Extractor) (text : Text)

theorem answers_extractText (cutoff : Cutoff) (content : Text) (mode : Option MatchMode)
    (source : String) :
    Answers (extractor.extractText cutoff text content mode source).outcome := by
  rw [outcome_extractText]
  rcases Compiled.compile_cases (mode.getD extractor.mode) extractor.strict source content with
    ⟨fragment, others, -, -, compiles⟩ | ⟨-, compiles⟩
  · rw [compiles]
    exact .malformed source fragment
  · obtain ⟨extraction, extracts⟩ := Compiled.exists_extract_ofTemplate (mode.getD extractor.mode)
      content ((mode.getD extractor.mode).normalize text) cutoff source
    simp only [compiles, extracts]
    exact .ok extraction

theorem answers_firstOf (clock : Clock) (templates : List Template) :
    Answers (extractor.firstOf text clock templates).outcome := by
  induction templates generalizing clock with
  | nil => exact .ok none
  | cons template rest ih =>
    have tried : Answers (extractor.extractTemplate (clock 0) text template).outcome :=
      extractor.answers_extractText text (clock 0) template.content _ template.source
    rw [outcome_firstOf_cons]
    generalize (extractor.extractTemplate (clock 0) text template).outcome = outcome at tried
    cases tried with
    | malformed source fragment => exact .malformed source fragment
    | ok extraction =>
      cases extraction with
      | none => exact ih _
      | some extraction => exact .ok (some extraction)

end Extractor

/-! ## Where templates come from -/

/-- One template file, or a directory of which all templates are tried or only the best. -/
inductive Source where
  | file (path : String)
  | directory (path : String) (onlyBest : Bool)
  deriving DecidableEq, Repr

namespace Source

def Readable (files : FileSystem) : Source → Prop
  | file path => ∃ content, files.contents path = .ok content
  | directory path _ => ∃ paths, (files.entries path).outcome = .ok paths ∧
      ∀ path ∈ paths, ∃ content, files.contents path = .ok content

def call (extractor : Extractor) (text : Text) (mode : MatchMode) :
    Source → Traced Failure (Option Extraction)
  | file path => extractor.extractFile extractor.timeLimit.cutoff text path (some mode)
  | directory path onlyBest =>
    extractor.extractDirectory extractor.clock text path onlyBest (some mode)

theorem outcome_call_directory (extractor : Extractor) (text : Text) (mode : MatchMode)
    {path : String} (onlyBest : Bool) {paths : List String} {content : String → Text}
    (listed : (extractor.repository.files.entries path).outcome = .ok paths)
    (reads : ∀ path ∈ paths, extractor.repository.files.contents path = .ok (content path)) :
    (call extractor text mode (.directory path onlyBest)).outcome =
      (extractor.firstOf text extractor.clock (extractor.tried text onlyBest
        (paths.map (Repository.templateAt mode content)))).outcome := by
  obtain ⟨_, -, list⟩ := Repository.list_of_readable (some mode) listed reads
  obtain ⟨_, -, chosen⟩ := Extractor.candidates_of_list text onlyBest list
  obtain ⟨_, -, answered⟩ := extractor.extractDirectory_of_candidates text extractor.clock
    (show extractor.candidates text path onlyBest ((some mode).getD extractor.mode) = _ from chosen)
  show (extractor.extractDirectory extractor.clock text path onlyBest (some mode)).outcome = _
  rw [answered]
  rfl

/-- When the templates can be read, nothing else can fail but a malformed one. -/
theorem answers_call (extractor : Extractor) (text : Text) (mode : MatchMode) {source : Source}
    (readable : source.Readable extractor.repository.files) :
    Answers (source.call extractor text mode).outcome := by
  cases source with
  | file path =>
    obtain ⟨content, reads⟩ := readable
    have loaded : (extractor.repository.load (some mode) path).mapError Failure.file =
        ⟨[.read path], .ok ⟨content, path, mode⟩⟩ := by
      rw [Repository.load_of_readable reads]
      rfl
    have called : (call extractor text mode (.file path)).outcome =
        (extractor.extractText extractor.timeLimit.cutoff text content (some mode)
          path).outcome := by
      show (extractor.extractFile extractor.timeLimit.cutoff text path (some mode)).outcome = _
      unfold Extractor.extractFile
      rw [Option.getD_some, Traced.bind_of_ok loaded]
      rfl
    rw [called]
    exact extractor.answers_extractText text _ content (some mode) path
  | directory path onlyBest =>
    obtain ⟨paths, listed, readable⟩ := readable
    choose! content reads using readable
    rw [outcome_call_directory extractor text mode onlyBest listed reads]
    exact extractor.answers_firstOf text extractor.clock _

end Source

namespace CommandLine

/-! ## What a command line asks for -/

/-- Where templates come from: the file that is given; else the directory that is given, or the one
of the settings. All its templates are tried when the command line or the settings say so. -/
inductive Selects (settings : Settings) (items : List Item) : Source → Prop where
  | file {path : String} (given : GivesPath .template items path) :
    Selects settings items (.file path)
  | directory {path : String} {onlyBest : Bool}
    (noTemplate : ∀ other, ¬ GivesPath .template items other)
    (given : GivesPath .directory items path)
    (best : onlyBest = true ↔ settings.onlyBest = true ∧ .all ∉ items) :
    Selects settings items (.directory path onlyBest)
  | configured {onlyBest : Bool}
    (noTemplate : ∀ other, ¬ GivesPath .template items other)
    (noDirectory : ∀ other, ¬ GivesPath .directory items other)
    (best : onlyBest = true ↔ settings.onlyBest = true ∧ .all ∉ items) :
    Selects settings items (.directory settings.templatesPath onlyBest)

inductive MatchesIn (settings : Settings) (items : List Item) : MatchMode → Prop where
  | whole (given : lastValue? .mode items = some "whole") : MatchesIn settings items .whole
  | line (given : lastValue? .mode items = some "line") : MatchesIn settings items .line
  | configured (none : lastValue? .mode items = none) : MatchesIn settings items settings.mode

/-- A command line asks to parse an input with templates of a source, matched in a mode. -/
structure AsksFor (settings : Settings) (arguments : List String) (input : String)
    (source : Source) (mode : MatchMode) : Prop where
  reading : ∃ rest items, arguments = "parse" :: rest ∧ Written rest items ∧
    operands items = [input] ∧ Selects settings items source ∧ MatchesIn settings items mode

/-- The source of a request to parse. -/
def requested (settings : Settings) (template directory : Option String) (tryAll : Bool) : Source :=
  match template with
  | some path => .file path
  | none => .directory (directory.getD settings.templatesPath) (settings.onlyBest && !tryAll)

theorem extraction_eq_call (settings : Settings) (disk : Disk) (text : Text)
    (template directory : Option String) (tryAll : Bool) (mode : Option MatchMode) :
    extraction settings disk text template directory tryAll mode =
      (requested settings template directory tryAll).call (settings.extractor disk) text
        (mode.getD settings.mode) := by
  unfold extraction requested
  cases template <;> rfl

namespace Demands

variable {items : List Item} {input : String} {template directory : Option String} {tryAll : Bool}
  {mode : Option MatchMode} (demands : Demands items input template directory tryAll mode)
  (settings : Settings)

include demands

theorem template_eq_none_iff : template = none ↔ ∀ path, ¬ GivesPath .template items path := by
  rw [Option.eq_none_iff_forall_ne_some]
  exact forall_congr' fun path => not_congr (demands.template path)

theorem directory_eq_none_iff : directory = none ↔ ∀ path, ¬ GivesPath .directory items path := by
  rw [Option.eq_none_iff_forall_ne_some]
  exact forall_congr' fun path => not_congr (demands.directory path)

theorem onlyBest_iff (onlyBest : Bool) :
    (onlyBest = true ↔ settings.onlyBest = true ∧ .all ∉ items) ↔
      onlyBest = (settings.onlyBest && !tryAll) := by
  rw [← demands.tryAll]
  cases onlyBest <;> cases settings.onlyBest <;> cases tryAll <;> decide

theorem selects_iff (source : Source) :
    Selects settings items source ↔ source = requested settings template directory tryAll := by
  constructor
  · intro selects
    cases selects with
    | file given => rw [(demands.template _).mpr given, requested]
    | directory noTemplate given best =>
      rw [demands.template_eq_none_iff.mpr noTemplate, (demands.directory _).mpr given,
        (demands.onlyBest_iff settings _).mp best]
      rfl
    | configured noTemplate noDirectory best =>
      rw [demands.template_eq_none_iff.mpr noTemplate,
        demands.directory_eq_none_iff.mpr noDirectory, (demands.onlyBest_iff settings _).mp best]
      rfl
  · rintro rfl
    have best := (demands.onlyBest_iff settings _).mpr rfl
    cases template with
    | some path => exact .file ((demands.template path).mp rfl)
    | none =>
      have noTemplate := demands.template_eq_none_iff.mp rfl
      cases directory with
      | some path => exact .directory noTemplate ((demands.directory path).mp rfl) best
      | none => exact .configured noTemplate (demands.directory_eq_none_iff.mp rfl) best

theorem matchesIn_iff (own : MatchMode) :
    MatchesIn settings items own ↔ own = mode.getD settings.mode := by
  have given := demands.mode
  constructor
  · intro matchesIn
    cases matchesIn with
    | whole same =>
      rw [same] at given
      rcases mode with _ | _ | _
      · cases given
      · rfl
      · exact absurd given (by decide)
    | line same =>
      rw [same] at given
      rcases mode with _ | _ | _
      · cases given
      · exact absurd given (by decide)
      · rfl
    | configured none =>
      rw [none, Option.map_eq_none_iff] at given
      rw [given, Option.getD_none]
  · rintro rfl
    rcases mode with _ | _ | _
    · exact .configured given.symm
    · exact .whole given.symm
    · exact .line given.symm

end Demands

/-- An accepted command line asks for one thing, and that is what is requested. -/
theorem asksFor_iff (settings : Settings) {arguments : List String} {input : String}
    {template directory : Option String} {tryAll : Bool} {mode : Option MatchMode}
    (accepted : Request.ofArguments arguments = .ok (.parse input template directory tryAll mode))
    (source : Source) (own : MatchMode) :
    AsksFor settings arguments input source own ↔
      source = requested settings template directory tryAll ∧ own = mode.getD settings.mode := by
  obtain ⟨rest, items, rfl, written, demands⟩ := exists_written_of_ofArguments accepted
  constructor
  · rintro ⟨_, others, same, reading, -, selects, matchesIn⟩
    cases same
    cases written.unique reading
    exact ⟨(demands.selects_iff settings source).mp selects,
      (demands.matchesIn_iff settings own).mp matchesIn⟩
  · rintro ⟨isSource, isMode⟩
    exact ⟨rest, items, rfl, written, demands.input,
      (demands.selects_iff settings source).mpr isSource,
      (demands.matchesIn_iff settings own).mpr isMode⟩

/-! ## Runs -/

/-- What an exit code and a printed text say of an extraction. -/
structure Tells (call : Except Failure (Option Extraction)) (code : Nat) (output : Text) :
    Prop where
  found : code = 0 ↔ ∃ extraction, call = .ok (some extraction)
  missing : code = 1 ↔ call = .ok none
  malformed : code = 2 ↔ ∃ source fragment, call = .error (.malformed source fragment)
  silent : code ≠ 0 → output = []
  readsBack : ∀ extraction, call = .ok (some extraction) →
    Json.object? output = some extraction.values.pairs

theorem exists_answer {traced : Traced Failure (Option Extraction)}
    (answers : Answers traced.outcome) :
    ∃ given : Answer, (answer traced).outcome = .ok given ∧
      Tells traced.outcome given.code given.output := by
  unfold answer
  generalize traced.outcome = call at answers
  cases answers with
  | malformed source fragment =>
    exact ⟨_, rfl, ⟨by simp [malformedTemplate], by simp [malformedTemplate],
      by simp [malformedTemplate], fun _ => rfl, nofun⟩⟩
  | ok extraction =>
    cases extraction with
    | none =>
      exact ⟨_, rfl, ⟨by simp [notFound], by simp [notFound], by simp [notFound], fun _ => rfl,
        nofun⟩⟩
    | some extraction =>
      refine ⟨_, rfl, ⟨by simp [found], by simp [found], by simp [found], fun other => ?_, ?_⟩⟩
      · exact absurd rfl other
      · rintro _ ⟨⟩
        have lineBreak : ∀ c ∈ ['\n'], Json.isSpace c = true := List.all_eq_true.mp (by decide)
        exact Json.object?_object extraction.values.pairs lineBreak

theorem ofArguments_of_prepare {arguments : List String} {environment : List (String × String)}
    {disk : Disk} {settings : Settings} {request : Request}
    (prepared : prepare arguments environment disk = .ok (settings, request)) :
    Request.ofArguments arguments = .ok request := by
  unfold prepare at prepared
  split at prepared
  · cases prepared
  · split at prepared
    · cases prepared
    · split at prepared
      · cases prepared
      · cases prepared
      · rename_i accepted
        cases prepared
        exact accepted

theorem run_of_prepare {arguments : List String} {environment : List (String × String)} {disk : Disk}
    {settings : Settings} {request : Request}
    (prepared : prepare arguments environment disk = .ok (settings, request)) :
    run arguments environment disk = runRequest settings disk request := by
  rw [run, prepared]

theorem runRequest_eq_ran_iff {settings : Settings} {disk : Disk} {request : Request}
    {outcome : Except Failure Answer} :
    (∃ log, runRequest settings disk request = .ran log outcome) ↔
      (thresholds.lookup settings.logLevel).isSome ∧
        (execute settings disk request).outcome = outcome := by
  unfold runRequest
  cases thresholds.lookup settings.logLevel with
  | none => simp
  | some threshold => simp [bind, Traced.andThen, Traced.report, Traced.emit]

theorem outcome_execute_parse {settings : Settings} {disk : Disk} {input : String} {text : Text}
    (loaded : (disk.load settings.templateEncoding input).outcome = .ok text)
    (template directory : Option String) (tryAll : Bool) (mode : Option MatchMode) :
    (execute settings disk (.parse input template directory tryAll mode)).outcome =
      (answer (extraction settings disk text template directory tryAll mode)).outcome := by
  unfold execute
  simp only [bind, Traced.andThen, Traced.mapError, loaded]

/-- What a parse command comes to, for every accepted command line and all settings, when the input
can be loaded and the templates can be read. The command is carried out unless the level of the
messages is unknown, which ends a run before anything is loaded. Then the exit code tells whether the
extraction that the command line and the settings ask for yields values, yields none or is stopped by
a malformed template; nothing is printed but values, and these are read back as they are, in their
order. -/
theorem parse_exit_code_tells {arguments : List String} {environment : List (String × String)}
    {disk : Disk} {settings : Settings} {input : String} {template directory : Option String}
    {tryAll : Bool} {mode : Option MatchMode}
    (accepted : prepare arguments environment disk =
      .ok (settings, .parse input template directory tryAll mode)) :
    (∃ source own, AsksFor settings arguments input source own) ∧
    ∀ source own, AsksFor settings arguments input source own →
      ∀ text, (disk.load settings.templateEncoding input).outcome = .ok text →
        source.Readable (disk.fileSystem settings.templateEncoding) →
        let call := source.call (settings.extractor disk) text own
        let report := run arguments environment disk
        ((∃ log outcome, report = .ran log outcome) ↔
          (thresholds.lookup settings.logLevel).isSome) ∧
        ∀ log outcome, report = .ran log outcome → ∃ answer,
          outcome = .ok answer ∧ Tells call.outcome report.code answer.output := by
  have asks := asksFor_iff settings (ofArguments_of_prepare accepted)
  refine ⟨⟨_, _, (asks _ _).mpr ⟨rfl, rfl⟩⟩, fun source own isAsked text loaded readable => ?_⟩
  obtain ⟨rfl, rfl⟩ := (asks source own).mp isAsked
  intro call report
  have ran := run_of_prepare accepted
  have answers := Source.answers_call (settings.extractor disk) text (mode.getD settings.mode)
    readable
  obtain ⟨given, isGiven, tells⟩ := exists_answer answers
  have executed := outcome_execute_parse loaded template directory tryAll mode
  rw [extraction_eq_call, isGiven] at executed
  constructor
  · constructor
    · rintro ⟨log, outcome, isRan⟩
      exact (runRequest_eq_ran_iff.mp ⟨log, ran.symm.trans isRan⟩).1
    · intro known
      obtain ⟨log, isRan⟩ := runRequest_eq_ran_iff.mpr ⟨known, rfl⟩
      exact ⟨log, _, ran.trans isRan⟩
  · intro log outcome isRan
    obtain ⟨-, same⟩ := runRequest_eq_ran_iff.mp ⟨log, ran.symm.trans isRan⟩
    have isOutcome := same.symm.trans executed
    refine ⟨given, isOutcome, ?_⟩
    rw [isRan, isOutcome]
    exact tells

theorem eq_ok_of_toOption {ε α : Type} {outcome : Except ε α} {value : α}
    (succeeds : outcome.toOption = some value) : outcome = .ok value := by
  cases outcome with
  | error => cases succeeds
  | ok => exact congrArg Except.ok (Option.some.inj succeeds)

/-- Names of options are cut short, the last mode counts, and all templates are tried: the first has
no placeholders though it is more like the text. A value with quotes is read back. -/
theorem parse_exit_code_tells_quoted :
    let file (text : String) : Node := .file (.bytes text.toUTF8.toList)
    let disk := ((Disk.empty.write "in.txt" (file "Name: \"A\"\nAge: 7")).write "forms/a"
      (file "Name: \"A\"\nAge: 8")).write "forms/b" (file "Name: {%N%} Age: {%A%}")
    let report := run
      ["parse", "--mode=line", "--templates", "forms", "in.txt", "--al", "--mod", "whole"] [] disk
    ∃ log answer, report = .ran log (.ok answer) ∧ report.code = 0 ∧
      Json.object? answer.output =
        some [("N".toList, "\"A\"".toList), ("A".toList, "7".toList)] := by
  intro file disk report
  let words := ["--mode=line", "--templates", "forms", "in.txt", "--al", "--mod", "whole"]
  have accepted : prepare ("parse" :: words) [] disk =
      .ok (.defaults, .parse "in.txt" none (some "forms") true (some .whole)) :=
    eq_ok_of_toOption (by decide +kernel)
  have written : Written words [.option .mode "line", .option .directory "forms",
      .operand "in.txt", .all, .option .mode "whole"] :=
    .attached rfl (.assigning ⟨"--mode", by decide, by decide, .inl rfl⟩ "line") <|
    .apart rfl (.bare ⟨"--templates-dir", by decide, by decide, .inr (by decide)⟩)
      (.of_head (by decide)) <|
    .operand (.of_head (by decide)) <|
    .all (.bare ⟨"--all", by decide, by decide, .inr (by decide)⟩) <|
    .apart rfl (.bare ⟨"--mode", by decide, by decide, .inr (by decide)⟩)
      (.of_head (by decide)) .nil
  have asks : AsksFor .defaults ("parse" :: words) "in.txt" (.directory "forms" false) .whole :=
    ⟨_, _, rfl, written, rfl, .directory (by rintro _ ⟨given, -⟩; cases given)
      ⟨rfl, by decide⟩ (by decide), .whole rfl⟩
  have loaded : (disk.load "utf-8" "in.txt").outcome = .ok "Name: \"A\"\nAge: 7".toList := by
    decide +kernel
  have named : disk.fileNames ["forms"] = ["a", "b"] := by
    unfold Disk.fileNames
    rw [show disk.nodes.filterMap _ = ["a", "b"] from by decide +kernel]
    exact List.mergeSort_of_pairwise (by decide)
  have listed : ((disk.fileSystem "utf-8").entries "forms").outcome =
      .ok ["forms/a", "forms/b"] := by
    have place : disk.locate (Path.ofString "forms") = .ok (.inside ["forms"]) := rfl
    have found : disk.list "forms" = .ok ["forms/a", "forms/b"] := by
      simp only [Disk.list, place, named]
      decide +kernel
    simp only [Disk.fileSystem, found]
    rfl
  let content : String → Text := fun path =>
    if path = "forms/a" then "Name: \"A\"\nAge: 8".toList else "Name: {%N%} Age: {%A%}".toList
  have reads : ∀ path ∈ ["forms/a", "forms/b"], (disk.fileSystem "utf-8").contents path =
      .ok (content path) := by
    intro path member
    rcases List.mem_pair.mp member with rfl | rfl <;> decide +kernel
  obtain ⟨-, carriesOut⟩ := parse_exit_code_tells accepted
  obtain ⟨ran, tells⟩ := carriesOut _ _ asks _ loaded
    ⟨_, listed, fun path member => ⟨_, reads path member⟩⟩
  obtain ⟨log, outcome, isRan⟩ := ran.mpr (by decide)
  obtain ⟨answer, rfl, told⟩ := tells log outcome isRan
  have called := Source.outcome_call_directory (Settings.defaults.extractor disk)
    "Name: \"A\"\nAge: 7".toList .whole false listed reads
  obtain ⟨extraction, isExtracted, pairs⟩ : ∃ extraction, ((Source.directory "forms" false).call
      (Settings.defaults.extractor disk) "Name: \"A\"\nAge: 7".toList .whole).outcome =
        .ok (some extraction) ∧
      extraction.values.pairs = [("N".toList, "\"A\"".toList), ("A".toList, "7".toList)] := by
    rw [called]
    have pairs : ((Settings.defaults.extractor disk).firstOf "Name: \"A\"\nAge: 7".toList
        (Settings.defaults.extractor disk).clock
        [⟨"Name: \"A\"\nAge: 8".toList, "forms/a", .whole⟩,
          ⟨"Name: {%N%} Age: {%A%}".toList, "forms/b", .whole⟩]).outcome.toOption.join.map
            (·.values.pairs) =
          some [("N".toList, "\"A\"".toList), ("A".toList, "7".toList)] := by decide +kernel
    obtain ⟨extraction, joined, isPairs⟩ := Option.map_eq_some_iff.mp pairs
    exact ⟨extraction, eq_ok_of_toOption (Option.join_eq_some_iff.mp joined), isPairs⟩
  refine ⟨log, answer, isRan, told.found.mpr ⟨extraction, isExtracted⟩, ?_⟩
  rw [told.readsBack extraction isExtracted, pairs]

end CommandLine

end Stencil
