import Stencil.Proofs.Assembling

/-! Another file system in the place of the one that is there.

A repository is made once and holds the file system of that time, while a file system that is
registered is handed out at once. So the two agree as long as file systems are registered before the
repository is made, or the registry is reset after them.
-/

set_option autoImplicit false

namespace Stencil

def Givens.withFiles (givens : Givens) (files : Component) (present : files.isNull = false) :
    Givens :=
  { givens with files := some files, present := by simpa using present }

namespace Givens

theorem given_withFiles (givens : Givens) {files : Component} (present : files.isNull = false)
    {part : Part} (other : part ≠ .fileSystem) :
    (givens.withFiles files present).given part = givens.given part := by
  cases part with
  | fileSystem => exact absurd rfl other
  | _ => rfl

theorem recipe_withFiles (givens : Givens) {files : Component} (present : files.isNull = false)
    (settings : Settings) {part : Part} (other : part ≠ .fileSystem) :
    (givens.withFiles files present).recipe settings part = givens.recipe settings part := by
  unfold recipe
  rw [givens.given_withFiles present other]

end Givens

/-- A file system is the one that was registered, or made from settings where none was. -/
def IsFiles (settings : Settings) (registered : Option Component) (files : Component) : Prop :=
  match registered with
  | some given => files = given
  | none => ∃ id, files = .fileSystem id (.disk settings.templateEncoding)

theorem IsFiles.getD_eq {settings : Settings} {registered : Option Component} {files : Component}
    (isFiles : IsFiles settings registered files) : registered.getD files = files := by
  cases registered with
  | some given => exact isFiles.symm
  | none => rfl

theorem Fits.isFiles {settings : Settings} {givens : Givens} {late : Option Component} {since : Nat}
    {kept : Part → Option Component} {files : Component}
    (fits : Fits settings givens late since kept .fileSystem files) :
    IsFiles settings givens.files files := by
  cases isGiven : givens.files with
  | some given => exact fits.eq_given isGiven
  | none =>
    cases fits.made isGiven
    exact ⟨_, rfl⟩

namespace Registry

/-- File systems are replaced, parts are resolved, and what was made is dropped; nothing else. -/
def Operation.Replaces : Operation → Prop
  | register _ _ _ => False
  | registerInstance interface files => interface = .fileSystem ∧ files.isNull = false
  | resolve interface => ∃ part : Part, part.interface = interface
  | reset => True

/-- What operations say of file systems: which one was registered last, and which one was when the
repository was made, if it was made since the last reset. -/
structure Replaced where
  registered : Option Component
  held : Option (Option Component)

namespace Replaced

def nothing : Replaced :=
  ⟨none, none⟩

def after (files : Replaced) : Operation → Replaced
  | .registerInstance .fileSystem component => { files with registered := some component }
  | .resolve .repository => { files with held := some (files.held.getD files.registered) }
  | .resolve .extractor => { files with held := some (files.held.getD files.registered) }
  | .reset => { files with held := none }
  | _ => files

def afterAll (files : Replaced) (operations : List Operation) : Replaced :=
  operations.foldl after files

/-- The file system that a repository gets or has got. -/
def behind (files : Replaced) : Option Component :=
  files.held.getD files.registered

end Replaced

theorem kept_registerInstance (registry : Registry) (interface other : Interface)
    (component : Component) :
    (registry.registerInstance interface component).kept other =
      if interface = other then keep component else registry.kept other := by
  unfold kept registerInstance
  rw [find?_put]
  split <;> rfl

namespace Assembled

variable {settings : Settings} {givens : Givens} {late : Option Component} {since : Nat}
  {registry : Registry}

theorem reset (assembled : Assembled settings givens late since registry) :
    Assembled settings givens none since registry.reset := by
  refine of_empty (fun part => ?_) assembled.recent
  rw [find?_reset, assembled.find?_eq, Option.map_some]

theorem registerInstance (assembled : Assembled settings givens late since registry)
    {files : Component} (present : files.isNull = false) :
    Assembled settings (givens.withFiles files present)
      (if (registry.kept .repository).isSome then some files else none) since
      (registry.registerInstance .fileSystem files) := by
  have isKept : keep files = some files := by simp [keep, present]
  have same : ∀ part : Part, part ≠ .fileSystem →
      (registry.registerInstance .fileSystem files).find? part.interface =
        registry.find? part.interface := fun part other =>
    (find?_put ..).trans (if_neg fun same => other (Part.interface_inj.mp same).symm)
  have held : ∀ part : Part, part ≠ .fileSystem →
      (registry.registerInstance .fileSystem files).kept part.interface =
        registry.kept part.interface := fun part other =>
    congrArg (·.bind Registration.cached) (same part other)
  have now : (registry.registerInstance .fileSystem files).kept .fileSystem = some files := by
    rw [kept_registerInstance, if_pos rfl, isKept]
  refine ⟨fun part => ?_, fun part component isHeld => ?_, assembled.recent, fun isLate => ?_⟩
  · by_cases isFiles : part = .fileSystem
    · subst isFiles
      exact ⟨_, find?_put ..⟩
    · rw [same part isFiles, givens.recipe_withFiles present settings isFiles]
      exact assembled.bound part
  · by_cases isFiles : part = .fileSystem
    · subst isFiles
      cases now.symm.trans isHeld
      exact .of_given rfl
    · rw [held part isFiles] at isHeld
      have fits := assembled.fits part component isHeld
      have given := givens.given_withFiles present isFiles
      cases isGiven : givens.given part with
      | some own => exact fits.eq_given isGiven ▸ .of_given (given.trans isGiven)
      | none =>
        apply Fits.of_made (given.trans isGiven)
        cases fits.made isGiven with
        | fileSystem => exact absurd rfl isFiles
        | scoring recent => exact .scoring recent
        | repository recent _ scoring =>
          have built : (registry.kept .repository).isSome := Option.isSome_of_mem isHeld
          rw [if_pos built]
          exact .repository recent now ((held .scoring (by decide)).trans scoring)
        | extractor recent repository =>
          exact .extractor recent ((held .repository (by decide)).trans repository)
        | documentLoader recent => exact .documentLoader recent
  · have built : (registry.kept .repository).isSome := by
      by_contra unbuilt
      rw [if_neg unbuilt] at isLate
      cases isLate
    exact (congrArg Option.isSome (held .repository (by decide))).trans built

end Assembled

/-! ## Replacing and resolving in turn -/

/-- A registry of parts is where operations lead that say this of file systems. -/
structure Tracks (settings : Settings) (files : Replaced) (registry : Registry) : Prop where
  assembled : ∃ givens late, Assembled settings givens late 0 registry ∧
    givens.files = files.registered ∧ (late.isSome → late = files.registered)
  built : files.held.isSome = (registry.kept .repository).isSome
  behind : ∀ id component scoring mode,
    registry.kept .repository = some (.repository id component scoring mode) →
      IsFiles settings files.behind component

namespace Tracks

variable {settings : Settings} {files : Replaced} {registry : Registry}

theorem of_configure (registry : Registry) (settings : Settings) :
    Tracks settings .nothing (registry.configure settings) := by
  have empty : (registry.configure settings).kept .repository = none :=
    kept_eq (find?_configure registry settings .repository)
  refine ⟨⟨.nothing, none, .of_configure registry settings (Nat.zero_le _), rfl, nofun⟩, ?_, ?_⟩
  · rw [empty]
    rfl
  · rw [empty]
    exact nofun

theorem reset (tracks : Tracks settings files registry) :
    Tracks settings (files.after .reset) registry.reset := by
  obtain ⟨givens, late, assembled, registered, -⟩ := tracks.assembled
  have empty : registry.reset.kept .repository = none := by
    unfold kept
    rw [find?_reset, show registry.find? .repository = _ from assembled.find?_eq .repository]
    rfl
  refine ⟨⟨givens, none, assembled.reset, registered, nofun⟩, ?_, ?_⟩
  · rw [empty]
    rfl
  · rw [empty]
    exact nofun

theorem registerInstance (tracks : Tracks settings files registry) {component : Component}
    (present : component.isNull = false) :
    Tracks settings (files.after (.registerInstance .fileSystem component))
      (registry.registerInstance .fileSystem component) := by
  obtain ⟨givens, late, assembled, registered, -⟩ := tracks.assembled
  have held : (registry.registerInstance .fileSystem component).kept .repository =
      registry.kept .repository := by
    rw [kept_registerInstance, if_neg (by decide)]
  refine ⟨⟨_, _, assembled.registerInstance present, rfl, fun isLate => ?_⟩, ?_, ?_⟩
  · by_cases isBuilt : (registry.kept .repository).isSome
    · exact if_pos isBuilt
    · rw [if_neg isBuilt] at isLate
      cases isLate
  · rw [held]
    exact tracks.built
  · rw [held]
    intro id other scoring mode isHeld
    have isBuilt := tracks.built.trans (Option.isSome_of_mem isHeld)
    obtain ⟨behind, isBehind⟩ := Option.isSome_iff_exists.mp isBuilt
    have holds := tracks.behind id other scoring mode isHeld
    simpa only [Replaced.behind, Replaced.after, isBehind, Option.getD_some] using holds

theorem resolve (tracks : Tracks settings files registry) (part : Part) :
    Tracks settings (files.after (.resolve part.interface))
      (registry.resolve part.interface).registry := by
  obtain ⟨givens, late, assembled, registered, came⟩ := tracks.assembled
  obtain ⟨component, final, runs, resolved, supplies⟩ := assembled.resolve_eq part
  rw [resolved]
  by_cases lowest : part.rank = 0
  · have steady : final.kept .repository = registry.kept .repository :=
      supplies.higher .repository (by rw [lowest]; decide)
    have same : files.after (.resolve part.interface) = files := by
      cases part with
      | repository => exact absurd lowest (by decide)
      | extractor => exact absurd lowest (by decide)
      | _ => rfl
    rw [same]
    exact ⟨⟨givens, late, supplies.assembled, registered, came⟩,
      tracks.built.trans (congrArg Option.isSome steady.symm), steady ▸ tracks.behind⟩
  · have same : files.after (.resolve part.interface) = ⟨files.registered, some files.behind⟩ := by
      cases part with
      | repository => rfl
      | extractor => rfl
      | _ => exact absurd rfl lowest
    have built : (final.kept .repository).isSome := by
      cases part with
      | repository => exact Option.isSome_of_mem supplies.kept
      | extractor =>
        cases (supplies.assembled.fits .extractor component supplies.kept).made rfl with
        | extractor _ isHeld => exact Option.isSome_of_mem isHeld
      | _ => exact absurd rfl lowest
    rw [same]
    refine ⟨⟨givens, late, supplies.assembled, registered, came⟩, built.symm, ?_⟩
    intro id other scoring mode isHeld
    cases before : registry.kept .repository with
    | some repository =>
      have stays := supplies.progress.stays .repository repository before
      cases isHeld.symm.trans stays
      exact tracks.behind id other scoring mode before
    | none =>
      -- A repository that has just been made holds the file system of now.
      cases assembled.late_eq_none before
      have notHeld : files.held = none := by
        have built := tracks.built
        rwa [before, Option.isSome_none, Option.isSome_eq_false_iff, Option.isNone_iff_eq_none]
          at built
      have behind : files.behind = givens.files := by
        rw [Replaced.behind, notHeld, registered, Option.getD_none]
      cases (supplies.assembled.fits .repository _ isHeld).made rfl with
      | repository _ isFiles _ =>
        exact behind ▸ (supplies.assembled.fits .fileSystem _ isFiles).isFiles

theorem perform (tracks : Tracks settings files registry) {operation : Operation}
    (replaces : operation.Replaces) :
    Tracks settings (files.after operation) (registry.perform operation) := by
  cases operation with
  | register => exact replaces.elim
  | registerInstance interface component =>
    obtain ⟨rfl, present⟩ := replaces
    exact tracks.registerInstance present
  | resolve interface =>
    obtain ⟨part, rfl⟩ := replaces
    exact tracks.resolve part
  | reset => exact tracks.reset

theorem performAll (tracks : Tracks settings files registry) {operations : List Operation}
    (replace : ∀ operation ∈ operations, operation.Replaces) :
    Tracks settings (files.afterAll operations) (registry.performAll operations) := by
  induction operations generalizing files registry with
  | nil => exact tracks
  | cons operation rest ih =>
    obtain ⟨here, later⟩ := List.forall_mem_cons.mp replace
    exact ih (tracks.perform here) later

theorem kept_files (tracks : Tracks settings files registry) {id : Nat}
    {component scoring : Component} {mode : MatchMode}
    (isHeld : registry.kept .repository = some (.repository id component scoring mode)) :
    registry.kept .fileSystem = some (files.registered.getD component) := by
  obtain ⟨givens, late, assembled, registered, came⟩ := tracks.assembled
  cases (assembled.fits .repository _ isHeld).made rfl with
  | repository _ isFiles _ =>
    cases isGiven : givens.files with
    | some given =>
      have same := (assembled.fits .fileSystem _ isFiles).eq_given isGiven
      rw [← registered, isGiven, Option.getD_some, ← same]
      exact isFiles
    | none =>
      have notLate : late = none := by
        rw [← registered, isGiven] at came
        cases late with
        | none => rfl
        | some => exact came rfl
      rw [← registered, isGiven]
      rwa [notLate] at isFiles

/-- The extractor that is handed out holds the repository that is handed out, which holds the file
system of the time when it was made. -/
theorem exists_extractor (tracks : Tracks settings files registry) :
    ∃ id repositoryId held scoring final runs,
      let repository := .repository repositoryId held scoring settings.mode
      registry.resolve .extractor = ⟨.ok (.extractor id repository settings.mode settings.strict
        settings.timeLimit), final, runs⟩ ∧
      (final.resolve .repository).outcome = .ok repository ∧
      (final.resolve .fileSystem).outcome = .ok (files.registered.getD held) ∧
      IsFiles settings files.behind held := by
  obtain ⟨givens, late, assembled, -⟩ := tracks.assembled
  obtain ⟨extractor, final, runs, resolved, supplies⟩ := assembled.resolve_eq .extractor
  have after : Tracks settings (files.after (.resolve .extractor)) final := by
    have resolves := tracks.resolve .extractor
    rwa [resolved] at resolves
  cases (supplies.assembled.fits .extractor extractor supplies.kept).made rfl with
  | @extractor id repository _ isHeld =>
    cases (supplies.assembled.fits .repository repository isHeld).made rfl with
    | @repository repositoryId held scoring _ _ _ =>
      refine ⟨id, repositoryId, held, scoring, final, runs, resolved, ?_, ?_, ?_⟩
      · exact supplies.assembled.outcome_resolve_of_kept .repository isHeld
      · exact supplies.assembled.outcome_resolve_of_kept .fileSystem (after.kept_files isHeld)
      · exact after.behind repositoryId held scoring settings.mode isHeld

end Tracks

/-- The extractor that is handed out holds the repository that is handed out. That holds the file
system that was registered when it was made, or one made from settings where none was; which is the
file system that is handed out, unless another one was registered after the repository was made. -/
theorem resolve_extractor_after_replacing (registry : Registry) (settings : Settings)
    (operations : List Operation) (replace : ∀ operation ∈ operations, operation.Replaces) :
    let now := (registry.configure settings).performAll operations
    let files := Replaced.nothing.afterAll operations
    ∃ id repositoryId held scoring final runs,
      let repository := .repository repositoryId held scoring settings.mode
      now.resolve .extractor = ⟨.ok (.extractor id repository settings.mode settings.strict
        settings.timeLimit), final, runs⟩ ∧
      (final.resolve .repository).outcome = .ok repository ∧
      (final.resolve .fileSystem).outcome = .ok (files.registered.getD held) ∧
      IsFiles settings files.behind held ∧
      (files.behind = files.registered → (final.resolve .fileSystem).outcome = .ok held) := by
  intro now files
  have tracks := (Tracks.of_configure registry settings).performAll replace
  obtain ⟨id, repositoryId, held, scoring, final, runs, resolved, same, handedOut, isFiles⟩ :=
    tracks.exists_extractor
  refine ⟨id, repositoryId, held, scoring, final, runs, resolved, same, handedOut, isFiles, ?_⟩
  intro unchanged
  have current : IsFiles settings files.registered held := unchanged ▸ isFiles
  rw [handedOut, current.getD_eq]

/-- After a reset the extractor is made anew, and holds the file system that was registered. -/
theorem resolve_extractor_after_replacing_and_reset :
    let files : Component := .fileSystem 7 (.memory .empty)
    let operations : List Operation :=
      [.resolve .extractor, .registerInstance .fileSystem files, .reset, .resolve .repository]
    let now := (Registry.empty.configure .defaults).performAll operations
    (∀ operation ∈ operations, operation.Replaces) ∧
    ∃ id repositoryId scoring final runs,
      now.resolve .extractor = ⟨.ok (.extractor id (.repository repositoryId files scoring .whole)
        .whole false Settings.defaults.timeLimit), final, runs⟩ ∧
      (final.resolve .fileSystem).outcome = .ok files := by
  intro files operations now
  have replace : ∀ operation ∈ operations, operation.Replaces := by
    simp only [operations, List.forall_mem_cons]
    exact ⟨⟨.extractor, rfl⟩, ⟨rfl, rfl⟩, trivial, ⟨.repository, rfl⟩, nofun⟩
  obtain ⟨id, repositoryId, held, scoring, final, runs, resolved, -, handedOut, isFiles, -⟩ :=
    resolve_extractor_after_replacing .empty .defaults operations replace
  have same : held = files := isFiles
  exact ⟨replace, id, repositoryId, scoring, final, runs, same ▸ resolved, handedOut⟩

/-- A file system that is registered after the extractor was made is handed out, but the extractor
holds on to the one from before. -/
theorem extractor_holds_on_to_replaced_files :
    let files : Component := .fileSystem 7 (.memory .empty)
    let operations : List Operation := [.resolve .extractor, .registerInstance .fileSystem files]
    let now := (Registry.empty.configure .defaults).performAll operations
    (∀ operation ∈ operations, operation.Replaces) ∧
    ∃ id repositoryId held scoring final runs,
      now.resolve .extractor = ⟨.ok (.extractor id (.repository repositoryId held scoring .whole)
        .whole false Settings.defaults.timeLimit), final, runs⟩ ∧
      (final.resolve .fileSystem).outcome = .ok files ∧ held ≠ files := by
  intro files operations now
  have replace : ∀ operation ∈ operations, operation.Replaces := by
    simp only [operations, List.forall_mem_cons]
    exact ⟨⟨.extractor, rfl⟩, ⟨rfl, rfl⟩, nofun⟩
  have tracks := (Tracks.of_configure .empty .defaults).performAll replace
  obtain ⟨id, repositoryId, held, scoring, final, runs, resolved, -, handedOut, isFiles⟩ :=
    tracks.exists_extractor
  obtain ⟨own, isOwn⟩ : ∃ own, held = .fileSystem own (.disk "utf-8") := isFiles
  refine ⟨replace, id, repositoryId, held, scoring, final, runs, resolved, handedOut, ?_⟩
  show held ≠ .fileSystem 7 (.memory .empty)
  rw [isOwn]
  exact nofun

end Registry

end Stencil
