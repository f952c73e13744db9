import Stencil.Files.Memory
import Stencil.Proofs.Extracting
import Stencil.Proofs.Loading

/-! Extraction with the templates of a directory.

All files are read before any template is tried. Then the first template that settles the matter
gives the answer: it yields values, or it is malformed where that is an error. What stands behind it
has been read, but is not looked at.
-/

set_option autoImplicit false

namespace Stencil

/-- A template settles what comes of a text: it is malformed and may not be, or it yields values. -/
inductive Settles (strict : Bool) (text : Text) (template : Template) :
    Except Failure (Option Extraction) → Prop where
  | malformed {fragment : Text} {others : List Text} :
      strict = true → template.mode.malformed template.content = fragment :: others →
      Settles strict text template (.error (.malformed template.source fragment))
  | yields {values : Bindings} :
      (strict = true → template.mode.malformed template.content = []) →
      (Compiled.ofTemplate template.mode template.content).extract .never template.source
          (template.mode.normalize text) = .ok (some ⟨values, template.source⟩) →
      Settles strict text template (.ok (some ⟨values, template.source⟩))

namespace Settles

variable {strict : Bool} {text : Text} {template : Template}

theorem of_found (clear : strict = true → template.mode.malformed template.content = [])
    (present : Compiled.found template.mode template.content (template.mode.normalize text) ≠ []) :
    Settles strict text template (.ok (some ⟨.report .empty (Compiled.found template.mode
      template.content (template.mode.normalize text)), template.source⟩)) := by
  refine .yields clear ?_
  rw [Compiled.extract_ofTemplate, if_neg (by simpa using present)]

theorem of_nothing_found (clear : template.mode.malformed template.content = [])
    (nothing : Compiled.found template.mode template.content (template.mode.normalize text) = [])
    (own : Except Failure (Option Extraction)) : ¬ Settles strict text template own := by
  rintro (⟨-, stray⟩ | ⟨-, extracts⟩)
  · rw [clear] at stray
    exact absurd stray (by simp)
  · rw [Compiled.extract_ofTemplate, nothing] at extracts
    exact absurd (Except.ok.inj extracts) (by simp)

end Settles

/-- An outcome is that of the first template that settles the matter; where none does, nothing was
extracted. -/
structure FirstSettled (strict : Bool) (text : Text) (templates : List Template)
    (outcome : Except Failure (Option Extraction)) : Prop where
  first : ∀ before template after own, templates = before ++ template :: after →
    (∀ earlier ∈ before, ∀ other, ¬ Settles strict text earlier other) →
    Settles strict text template own → outcome = own
  none : (∀ template ∈ templates, ∀ own, ¬ Settles strict text template own) →
    outcome = .ok none

namespace Extractor

variable (extractor : Extractor) (text : Text)

theorem clock_of_unlimited (unlimited : extractor.timeLimit = none) :
    extractor.clock = fun _ => .never := by
  funext position
  unfold clock
  rw [unlimited]
  rfl

/-- Without a limit, trying a template either settles the matter or comes to nothing. -/
theorem settles_iff (template : Template) (own : Except Failure (Option Extraction)) :
    Settles extractor.strict text template own ↔
      (extractor.extractTemplate .never text template).outcome = own ∧ own ≠ .ok none := by
  have tried : (extractor.extractTemplate .never text template).outcome = _ :=
    outcome_extractText extractor .never text template.content (some template.mode) template.source
  simp only [Option.getD_some] at tried
  rcases Compiled.compile_cases template.mode extractor.strict template.source template.content with
    ⟨fragment, others, strict, stray, compiles⟩ | ⟨clear, compiles⟩
  · rw [compiles] at tried
    rw [tried]
    constructor
    · rintro (⟨-, stray'⟩ | ⟨clear, -⟩)
      · cases stray.symm.trans stray'
        exact ⟨rfl, by simp⟩
      · exact absurd (stray.symm.trans (clear strict)) (by simp)
    · rintro ⟨rfl, -⟩
      exact .malformed strict stray
  · simp only [compiles, Compiled.extract_ofTemplate] at tried
    rw [tried]
    constructor
    · rintro (⟨strict, stray⟩ | ⟨-, extracts⟩)
      · exact absurd (stray.symm.trans (clear strict)) (by simp)
      · rw [Compiled.extract_ofTemplate] at extracts
        exact ⟨congrArg Except.ok (Except.ok.inj extracts), by simp⟩
    · rintro ⟨rfl, something⟩
      split at something
      · exact absurd rfl something
      · rename_i present
        rw [if_neg present]
        exact .of_found clear (by simpa using present)

theorem outcome_of_not_settles {template : Template}
    (passed : ∀ own, ¬ Settles extractor.strict text template own) :
    (extractor.extractTemplate .never text template).outcome = .ok none := by
  by_contra something
  exact passed _ ((extractor.settles_iff text template _).mpr ⟨rfl, something⟩)

theorem outcome_firstOf_cons (clock : Clock) (template : Template) (rest : List Template) :
    (extractor.firstOf text clock (template :: rest)).outcome =
      match (extractor.extractTemplate (clock 0) text template).outcome with
      | .error failure => .error failure
      | .ok (some extraction) => .ok (some extraction)
      | .ok none => (extractor.firstOf text (fun position => clock (position + 1)) rest).outcome := by
  rw [firstOf]
  simp only [bind, Traced.andThen]
  cases (extractor.extractTemplate (clock 0) text template).outcome with
  | error failure => rfl
  | ok extraction => cases extraction <;> rfl

theorem firstSettled_firstOf (templates : List Template) :
    FirstSettled extractor.strict text templates
      (extractor.firstOf text (fun _ => .never) templates).outcome := by
  induction templates with
  | nil => exact ⟨fun before template after own split => by simp at split, fun _ => rfl⟩
  | cons template rest ih =>
    have tried := extractor.outcome_firstOf_cons text (fun _ => .never) template rest
    constructor
    · intro before first after own split passed settles
      cases before with
      | nil =>
        cases split
        obtain ⟨outcome, something⟩ := (extractor.settles_iff text template own).mp settles
        rw [tried, outcome]
        rcases own with failure | (_ | extraction)
        · rfl
        · exact absurd rfl something
        · rfl
      | cons earlier before =>
        cases split
        obtain ⟨here, later⟩ := List.forall_mem_cons.mp passed
        rw [tried, extractor.outcome_of_not_settles text here]
        exact ih.first before first after own rfl later settles
    · intro passed
      obtain ⟨here, later⟩ := List.forall_mem_cons.mp passed
      rw [tried, extractor.outcome_of_not_settles text here]
      exact ih.none later

/-! ## What is reported on the way -/

theorem messagesOnly_compile (mode : MatchMode) (strict : Bool) (source : String)
    (content : Text) : MessagesOnly (Compiled.compile mode strict source content).events := by
  unfold Compiled.compile
  dsimp only
  split
  · exact messagesOnly_nil
  · exact messagesOnly_append.mpr
      ⟨messagesOnly_map fun _ => ⟨_, _, rfl⟩, messagesOnly_singleton _ _⟩

theorem messagesOnly_extractText (cutoff : Cutoff) (content : Text) (mode : Option MatchMode)
    (source : String) :
    MessagesOnly (extractor.extractText cutoff text content mode source).events := by
  unfold extractText
  apply messagesOnly_bind (messagesOnly_compile _ _ _ _)
  intro compiled
  apply messagesOnly_bind messagesOnly_nil
  intro extraction
  apply messagesOnly_bind
  · cases extraction <;> exact messagesOnly_singleton _ _
  · exact fun _ => messagesOnly_nil

theorem messagesOnly_firstOf (clock : Clock) (templates : List Template) :
    MessagesOnly (extractor.firstOf text clock templates).events := by
  induction templates generalizing clock with
  | nil => exact messagesOnly_nil
  | cons template rest ih =>
    rw [firstOf]
    apply messagesOnly_bind (extractor.messagesOnly_extractText text _ _ _ _)
    intro extraction
    cases extraction with
    | none => exact ih _
    | some values => exact messagesOnly_nil

/-! ## The whole directory -/

variable {directory : String} {onlyBest : Bool} {mode : Option MatchMode} (clock : Clock)

theorem extractDirectory_of_error {events : List Event} {error : FileError}
    (failed : extractor.candidates text directory onlyBest (mode.getD extractor.mode) =
      ⟨events, .error error⟩) :
    extractor.extractDirectory clock text directory onlyBest mode =
      ⟨events, .error (.file error)⟩ := by
  unfold extractDirectory
  rw [failed]
  rfl

theorem extractDirectory_of_candidates {events : List Event} {templates : List Template}
    (loaded : extractor.candidates text directory onlyBest (mode.getD extractor.mode) =
      ⟨events, .ok templates⟩) :
    ∃ reports, MessagesOnly reports ∧
      extractor.extractDirectory clock text directory onlyBest mode =
        ⟨events ++ reports, (extractor.firstOf text clock templates).outcome⟩ := by
  have noted := extractor.messagesOnly_firstOf text clock templates
  have wrapped : (extractor.candidates text directory onlyBest
      (mode.getD extractor.mode)).mapError Failure.file = ⟨events, .ok templates⟩ := by
    rw [loaded]
    rfl
  unfold extractDirectory
  rw [Traced.bind_of_ok wrapped]
  cases tried : (extractor.firstOf text clock templates).outcome with
  | error failure =>
    refine ⟨_, noted, ?_⟩
    simp only [bind, Traced.andThen, tried]
  | ok extraction =>
    cases extraction with
    | some values =>
      refine ⟨_, noted, ?_⟩
      simp only [bind, Traced.andThen, tried, pure, Traced.ok, List.append_nil]
    | none =>
      refine ⟨_, messagesOnly_append.mpr ⟨noted, messagesOnly_singleton .info
        s!"No template in {directory} matched"⟩, ?_⟩
      simp only [bind, Traced.andThen, tried, pure, Traced.ok, Traced.report, Traced.emit,
        List.append_nil]

/-- Where only the best is tried, it is the first with the highest score; none is tried when no score
exceeds the floor. -/
theorem tried_onlyBest (templates : List Template) :
    (∃ best, Ranked.IsFirstBest Ranked.floor
        (templates.map (extractor.repository.rankedFor text)) best ∧
      extractor.tried text true templates = [best.template]) ∨
    (∀ one ∈ templates.map (extractor.repository.rankedFor text),
      ¬ Ranked.floor.lt one.score) ∧ extractor.tried text true templates = [] := by
  unfold tried Ranked.best
  rw [if_pos rfl]
  cases picked : Ranked.bestAbove Ranked.floor
      (templates.map (extractor.repository.rankedFor text)) with
  | none =>
    have low := Ranked.bestAbove_eq_none_iff.mp picked
    exact .inr ⟨low, rfl⟩
  | some best =>
    have highest := Ranked.isFirstBest_of_bestAbove picked
    exact .inl ⟨best, highest, rfl⟩

theorem tried_onlyBest_eq_nil_iff (percentage : extractor.repository.scoring.IsPercentage)
    (templates : List Template) : extractor.tried text true templates = [] ↔ templates = [] := by
  constructor
  · intro nothing
    rcases extractor.tried_onlyBest text templates with ⟨best, -, one⟩ | ⟨low, -⟩
    · rw [nothing] at one
      exact absurd one (by simp)
    · cases templates with
      | nil => rfl
      | cons template rest =>
        have above := Ranked.floor_lt_of_isPercentage percentage text template.content
        exact absurd above (low (extractor.repository.rankedFor text template)
          (List.mem_map_of_mem List.mem_cons_self))
  · rintro rfl
    rfl

end Extractor

/-- Extraction with the templates of a directory, without a limit. A directory that cannot be listed
and the first file that cannot be read are reported as they are, and no later file is asked for.
Otherwise every entry has been read once, in listing order, before anything else happens; then the
first template that settles the matter gives the answer. All are tried in listing order, or none but
the first of those with the highest score. The mode is the one that is asked for, or the extractor's
own. -/
theorem directory_extraction_first_settled (extractor : Extractor) (text : Text)
    (directory : String) (onlyBest : Bool) (mode : Option MatchMode)
    (unlimited : extractor.timeLimit = none) :
    let own := mode.getD extractor.mode
    let files := extractor.repository.files
    let listing := files.entries directory
    let answer := extractor.extractDirectory extractor.clock text directory onlyBest mode
    (∀ error, listing.outcome = .error error →
      answer = ⟨listing.events, .error (.file error)⟩) ∧
    (∀ before path after error, listing.outcome = .ok (before ++ path :: after) →
      (∀ earlier ∈ before, ∃ content, files.contents earlier = .ok content) →
      files.contents path = .error error →
      answer = ⟨listing.events ++ (before ++ [path]).map .read, .error (.file error)⟩) ∧
    ∀ paths (content : String → Text), listing.outcome = .ok paths →
      (∀ path ∈ paths, files.contents path = .ok (content path)) →
      let templates := paths.map fun path => (⟨content path, path, own⟩ : Template)
      let ranked := templates.map fun template =>
        (⟨template, extractor.repository.scoring text template.content⟩ : Ranked)
      ∃ tried reports,
        answer.events = listing.events ++ paths.map .read ++ reports ∧
        MessagesOnly reports ∧
        FirstSettled extractor.strict text tried answer.outcome ∧
        (onlyBest = false → tried = templates) ∧
        (onlyBest = true →
          (∃ best, Ranked.IsFirstBest Ranked.floor ranked best ∧ tried = [best.template]) ∨
          (∀ one ∈ ranked, ¬ Ranked.floor.lt one.score) ∧ tried = []) ∧
        (onlyBest = true → extractor.repository.scoring.IsPercentage →
          (tried = [] ↔ paths = [])) := by
  intro own files listing answer
  refine ⟨?_, ?_, ?_⟩
  · intro error unlisted
    exact extractor.extractDirectory_of_error text _
      (Extractor.candidates_of_list_error text onlyBest (Repository.list_of_unlisted unlisted))
  · intro before path after error listed readable unreadable
    exact extractor.extractDirectory_of_error text _ (Extractor.candidates_of_list_error text
      onlyBest (Repository.list_of_unreadable listed readable unreadable))
  · intro paths content listed readable templates ranked
    obtain ⟨loading, loadingNoted, loaded⟩ :=
      Repository.list_of_readable (some own) listed readable
    obtain ⟨ranking, rankingNoted, chosen⟩ :=
      Extractor.candidates_of_list text onlyBest loaded
    obtain ⟨trying, tryingNoted, answered⟩ :=
      extractor.extractDirectory_of_candidates text extractor.clock chosen
    refine ⟨extractor.tried text onlyBest templates, loading ++ ranking ++ trying, ?_,
      messagesOnly_append.mpr ⟨messagesOnly_append.mpr ⟨loadingNoted, rankingNoted⟩, tryingNoted⟩,
      ?_, ?_, ?_, ?_⟩
    · rw [show answer = _ from answered]
      simp only [List.append_assoc, listing, files]
    · rw [show answer = _ from answered, extractor.clock_of_unlimited unlimited]
      exact extractor.firstSettled_firstOf text _
    · rintro rfl
      rfl
    · rintro rfl
      exact extractor.tried_onlyBest text templates
    · rintro rfl percentage
      rw [extractor.tried_onlyBest_eq_nil_iff text percentage]
      exact List.map_eq_nil_iff

/-- A match shields against the malformed template behind it, though that one has been read. -/
theorem directory_extraction_shields_malformed :
    let literal : Template := ⟨"Name: Al".toList, "t/a", .whole⟩
    let form : Template := ⟨"Name: {%X%}".toList, "t/b", .whole⟩
    let stray : Template := ⟨"\x7b% Name".toList, "t/c", .whole⟩
    let templates := [literal, form, stray]
    let files : FileSystem :=
      { entries := fun _ => .ok (templates.map Template.source)
        contents := fun path => .ok (((templates.find? (·.source = path)).map (·.content)).getD []) }
    let repository : Repository := { files, scoring := Similarity.score, mode := .line }
    let extractor : Extractor := { repository, mode := .whole, strict := true, timeLimit := none }
    let answer := extractor.extractDirectory extractor.clock literal.content "t" false none
    (∃ reports, answer.events = [.read "t/a", .read "t/b", .read "t/c"] ++ reports ∧
      MessagesOnly reports) ∧
    ∃ values, answer.outcome = .ok (some ⟨values, "t/b"⟩) := by
  intro literal form stray templates files repository extractor answer
  obtain ⟨-, -, loaded⟩ := directory_extraction_first_settled extractor literal.content "t" false
    none rfl
  obtain ⟨tried, reports, events, noted, settled, all, -⟩ := loaded ["t/a", "t/b", "t/c"]
    (fun path => ((templates.find? (·.source = path)).map (·.content)).getD []) rfl fun _ _ => rfl
  have tries : tried = [literal] ++ form :: [stray] := all rfl
  have clear : MatchMode.whole.malformed "Name: Al".toList = [] := by decide +kernel
  have nothing : Compiled.found .whole "Name: Al".toList
      (MatchMode.whole.normalize "Name: Al".toList) = [] := by decide +kernel
  have clearForm : MatchMode.whole.malformed "Name: {%X%}".toList = [] := by decide +kernel
  have present : Compiled.found .whole "Name: {%X%}".toList
      (MatchMode.whole.normalize "Name: Al".toList) ≠ [] := by decide +kernel
  have unsettled : ∀ own, ¬ Settles true literal.content literal own :=
    Settles.of_nothing_found clear nothing
  have settles : Settles true literal.content form (.ok (some ⟨_, "t/b"⟩)) :=
    .of_found (fun _ => clearForm) present
  refine ⟨⟨reports, events, noted⟩, _, settled.first [literal] form [stray] _ tries ?_ settles⟩
  intro earlier member
  cases List.mem_singleton.mp member
  exact unsettled

end Stencil
