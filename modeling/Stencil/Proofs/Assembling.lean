import Stencil.Proofs.Lifetimes
import Stencil.Registry.Wiring

/-! The parts of the program while a registry puts them together.

Each part is made from settings, or a given component stands in its place. A part asks for lower ones
only, so that it is made at most once, and what was made below it is still there. All that is kept
fits together at any time, whatever else is resolved, also by factories of others that fail halfway.
Only a resolution without end is left out: it may break off in the middle of a part.
-/

set_option autoImplicit false

namespace Stencil

/-- The parts that a program is wired from. -/
inductive Part where
  | fileSystem
  | scoring
  | repository
  | extractor
  | documentLoader
  deriving DecidableEq, Repr

namespace Part

def interface : Part → Interface
  | fileSystem => .fileSystem
  | scoring => .scoring
  | repository => .repository
  | extractor => .extractor
  | documentLoader => .documentLoader

def recipe (settings : Settings) : Part → Recipe
  | fileSystem => Recipe.fileSystem settings
  | scoring => Recipe.scoring
  | repository => Recipe.repository settings
  | extractor => Recipe.extractor settings
  | documentLoader => Recipe.documentLoader settings

/-- A part asks for parts of lower rank only. -/
def rank : Part → Nat
  | fileSystem | scoring | documentLoader => 0
  | repository => 1
  | extractor => 2

@[simp]
theorem interface_inj {part other : Part} : part.interface = other.interface ↔ part = other := by
  cases part <;> cases other <;> decide

theorem exists_or_other (interface : Interface) :
    (∃ part : Part, part.interface = interface) ∨ ∃ name, interface = .other name := by
  cases interface with
  | fileSystem => exact .inl ⟨fileSystem, rfl⟩
  | scoring => exact .inl ⟨scoring, rfl⟩
  | repository => exact .inl ⟨repository, rfl⟩
  | extractor => exact .inl ⟨extractor, rfl⟩
  | documentLoader => exact .inl ⟨documentLoader, rfl⟩
  | other name => exact .inr ⟨name, rfl⟩

theorem interface_ne_other (part : Part) (name : String) : part.interface ≠ .other name := by
  cases part <;> exact nofun

end Part

/-- A resolution broke off because factories are nested without end. -/
def Resolution.Endless (resolution : Resolution) : Prop :=
  ∃ looping, resolution.outcome = .error (.cyclic looping)

/-- Components that stand in the place of parts. A scoring has to count as one: a repository would
make its own instead. -/
structure Givens where
  files : Option Component
  scorer : Option Component
  present : ∀ given ∈ files, given.isNull = false
  counts : ∀ given ∈ scorer, given.isTruthy = true

namespace Givens

def nothing : Givens :=
  ⟨none, none, by simp, by simp⟩

def given (givens : Givens) : Part → Option Component
  | .fileSystem => givens.files
  | .scoring => givens.scorer
  | _ => none

def recipe (givens : Givens) (settings : Settings) (part : Part) : Recipe :=
  match givens.given part with
  | some given => .give given
  | none => part.recipe settings

theorem not_null (givens : Givens) {part : Part} {given : Component}
    (isGiven : givens.given part = some given) : given.isNull = false := by
  cases part with
  | fileSystem => exact givens.present given isGiven
  | scoring =>
    have counts := givens.counts given isGiven
    cases given with
    | null => simp [Component.isTruthy] at counts
    | _ => rfl
  | _ => cases isGiven

end Givens

/-- What a part may be made to be, by what is kept for the parts below it. What is made has an
identity that was unused before; a repository holds the file system of its time, which may have been
replaced by a later one since. -/
inductive Made (settings : Settings) (late : Option Component) (since : Nat)
    (kept : Part → Option Component) : Part → Component → Prop where
  | fileSystem {id : Nat} : since ≤ id →
      Made settings late since kept .fileSystem (.fileSystem id (.disk settings.templateEncoding))
  | scoring {id : Nat} : since ≤ id → Made settings late since kept .scoring (.scoring id)
  | repository {id : Nat} {files scoring : Component} : since ≤ id →
      kept .fileSystem = some (late.getD files) → kept .scoring = some scoring →
      Made settings late since kept .repository (.repository id files scoring settings.mode)
  | extractor {id : Nat} {repository : Component} : since ≤ id →
      kept .repository = some repository →
      Made settings late since kept .extractor
        (.extractor id repository settings.mode settings.strict settings.timeLimit)
  | documentLoader {id : Nat} : since ≤ id →
      Made settings late since kept .documentLoader (.documentLoader id settings.templateEncoding)

/-- A component stands where a part has to: it is the given one, or made as the settings say. -/
def Fits (settings : Settings) (givens : Givens) (late : Option Component) (since : Nat)
    (kept : Part → Option Component) (part : Part) (component : Component) : Prop :=
  match givens.given part with
  | some given => component = given
  | none => Made settings late since kept part component

namespace Fits

variable {settings : Settings} {givens : Givens} {late : Option Component} {since : Nat}
  {kept more : Part → Option Component} {part : Part} {component : Component}

theorem of_given {given : Component} (isGiven : givens.given part = some given) :
    Fits settings givens late since kept part given := by
  unfold Fits
  rw [isGiven]

theorem of_made (notGiven : givens.given part = none)
    (made : Made settings late since kept part component) :
    Fits settings givens late since kept part component := by
  unfold Fits
  rwa [notGiven]

theorem made (fits : Fits settings givens late since kept part component)
    (notGiven : givens.given part = none) : Made settings late since kept part component := by
  unfold Fits at fits
  rwa [notGiven] at fits

theorem eq_given {given : Component} (fits : Fits settings givens late since kept part component)
    (isGiven : givens.given part = some given) : component = given := by
  unfold Fits at fits
  rwa [isGiven] at fits

theorem mono (fits : Fits settings givens late since kept part component)
    (stays : ∀ other held, kept other = some held → more other = some held) :
    Fits settings givens late since more part component := by
  cases isGiven : givens.given part with
  | some given => exact fits.eq_given isGiven ▸ of_given isGiven
  | none =>
    apply of_made isGiven
    cases fits.made isGiven with
    | fileSystem recent => exact .fileSystem recent
    | scoring recent => exact .scoring recent
    | repository recent files scoring =>
      exact .repository recent (stays _ _ files) (stays _ _ scoring)
    | extractor recent repository => exact .extractor recent (stays _ _ repository)
    | documentLoader recent => exact .documentLoader recent

theorem not_null (fits : Fits settings givens late since kept part component) :
    component.isNull = false := by
  cases isGiven : givens.given part with
  | some given => exact fits.eq_given isGiven ▸ givens.not_null isGiven
  | none => cases fits.made isGiven <;> rfl

theorem isTruthy (fits : Fits settings givens late since kept .scoring component) :
    component.isTruthy = true := by
  cases isGiven : givens.given .scoring with
  | some given => exact fits.eq_given isGiven ▸ givens.counts given isGiven
  | none =>
    cases fits.made isGiven
    rfl

end Fits

namespace Registry

def kept (registry : Registry) (interface : Interface) : Option Component :=
  (registry.find? interface).bind Registration.cached

theorem kept_eq {registry : Registry} {interface : Interface} {registration : Registration}
    (found : registry.find? interface = some registration) :
    registry.kept interface = registration.cached := by
  rw [kept, found, Option.bind_some]

theorem kept_remember {registry : Registry} {interface : Interface} {factory : Factory}
    {cached : Option Component} (found : registry.find? interface = some ⟨factory, true, cached⟩)
    (component : Component) (other : Interface) :
    (registry.remember interface component).kept other =
      if interface = other then keep component else registry.kept other := by
  unfold kept
  rw [find?_remember]
  split
  · rename_i same
    rw [← same, found]
    rfl
  · rfl

theorem nextId_remember (registry : Registry) (interface : Interface) (component : Component) :
    (registry.remember interface component).nextId = registry.nextId := by
  unfold remember
  cases registry.find? interface with
  | none => rfl
  | some registration =>
    dsimp only
    split <;> rfl

theorem find?_configure (registry : Registry) (settings : Settings) (part : Part) :
    (registry.configure settings).find? part.interface =
      some ⟨⟨none, part.recipe settings⟩, true, none⟩ := by
  simp only [configure, register, find?_put]
  cases part <;> rfl

/-- Every part is registered to be kept, and what is kept for one fits. -/
structure Assembled (settings : Settings) (givens : Givens) (late : Option Component) (since : Nat)
    (registry : Registry) : Prop where
  bound : ∀ part : Part, ∃ cached, registry.find? part.interface =
    some ⟨⟨none, givens.recipe settings part⟩, true, cached⟩
  fits : ∀ part component, registry.kept (Part.interface part) = some component →
    Fits settings givens late since (fun other => registry.kept other.interface) part component
  recent : since ≤ registry.nextId
  /-- A file system comes late only to a repository that is there. -/
  built : late.isSome → (registry.kept .repository).isSome

/-- What happens to the parts on the way from one registry to another: what is kept stays, and the
factory of a part runs when the part comes to be kept. -/
structure Progress (registry final : Registry) (runs : List Run) : Prop where
  later : registry.nextId ≤ final.nextId
  stays : ∀ (part : Part) component, registry.kept part.interface = some component →
    final.kept part.interface = some component
  once : ∀ part : Part, (registry.kept part.interface).toList.length +
    runs.countP (·.interface = part.interface) = (final.kept part.interface).toList.length

namespace Progress

theorem idle {registry final : Registry} {runs : List Run} (later : registry.nextId ≤ final.nextId)
    (same : ∀ part : Part, final.find? part.interface = registry.find? part.interface)
    (others : ∀ part : Part, runs.countP (·.interface = part.interface) = 0) :
    Progress registry final runs := by
  have held : ∀ part : Part, final.kept part.interface = registry.kept part.interface :=
    fun part => congrArg (·.bind Registration.cached) (same part)
  refine ⟨later, fun part component => by rw [held]; exact id, fun part => ?_⟩
  rw [held, others part, Nat.add_zero]

theorem refl (registry : Registry) : Progress registry registry [] :=
  idle (Nat.le_refl _) (fun _ => rfl) fun _ => rfl

theorem newId (registry : Registry) : Progress registry registry.newId.2 [] :=
  idle (Nat.le_succ _) (fun _ => rfl) fun _ => rfl

theorem trans {registry between final : Registry} {runs later : List Run}
    (first : Progress registry between runs) (second : Progress between final later) :
    Progress registry final (runs ++ later) := by
  refine ⟨Nat.le_trans first.later second.later,
    fun part component held => second.stays part component (first.stays part component held),
    fun part => ?_⟩
  have before := first.once part
  have after := second.once part
  rw [List.countP_append]
  omega

theorem perm {registry final : Registry} {runs others : List Run}
    (progress : Progress registry final runs) (same : runs.Perm others) :
    Progress registry final others := by
  refine ⟨progress.later, progress.stays, fun part => ?_⟩
  rw [← same.countP_eq]
  exact progress.once part

theorem countP_le {registry final : Registry} {runs : List Run}
    (progress : Progress registry final runs) (part : Part) :
    runs.countP (·.interface = part.interface) ≤ 1 := by
  have once := progress.once part
  have most : (final.kept part.interface).toList.length ≤ 1 := by
    cases final.kept part.interface <;> simp
  omega

end Progress

/-- A component comes to be supplied for a part and is kept from then on. Parts above it stay as they
are. -/
structure Supplies (settings : Settings) (givens : Givens) (late : Option Component) (since : Nat)
    (registry : Registry) (part : Part) (component : Component) (final : Registry)
    (runs : List Run) : Prop where
  kept : final.kept part.interface = some component
  assembled : Assembled settings givens late since final
  progress : Progress registry final runs
  higher : ∀ other : Part, part.rank < other.rank →
    final.kept other.interface = registry.kept other.interface

/-- What comes of resolving a part with factories nested to some depth: it is supplied, unless the
depth does not reach down to the lowest parts. -/
def Reached (settings : Settings) (givens : Givens) (late : Option Component) (since : Nat)
    (registry : Registry) (part : Part) (depth : Nat) : Prop :=
  (∃ component final runs,
    resolveWithin depth registry part.interface = ⟨.ok component, final, runs⟩ ∧
      Supplies settings givens late since registry part component final runs) ∨
  depth ≤ part.rank ∧ (resolveWithin depth registry part.interface).Endless

theorem follow_need_of_error {resolve : Registry → Interface → Resolution} {registry : Registry}
    {interface : Interface} {error : RegistryError} (next : Component → Recipe)
    (failed : (resolve registry interface).outcome = .error error) :
    (follow resolve (.need interface next) registry).outcome = .error error := by
  simp only [follow, failed]

namespace Assembled

variable {settings : Settings} {givens : Givens} {late : Option Component} {since : Nat}
  {registry between : Registry} {part : Part} {component : Component} {runs : List Run}

theorem idle (assembled : Assembled settings givens late since registry)
    (later : registry.nextId ≤ between.nextId)
    (same : ∀ part : Part, between.find? part.interface = registry.find? part.interface) :
    Assembled settings givens late since between := by
  have held : ∀ part : Part, between.kept part.interface = registry.kept part.interface :=
    fun part => congrArg (·.bind Registration.cached) (same part)
  refine ⟨fun part => same part ▸ assembled.bound part, fun part component isHeld => ?_,
    Nat.le_trans assembled.recent later, fun isLate => ?_⟩
  · rw [held] at isHeld
    exact (assembled.fits part component isHeld).mono fun other kept => by rw [held]; exact id
  · exact (congrArg Option.isSome (held .repository)).trans (assembled.built isLate)

theorem newId (assembled : Assembled settings givens late since registry) :
    Assembled settings givens late since registry.newId.2 :=
  assembled.idle (Nat.le_succ _) fun _ => rfl

theorem of_empty (bound : ∀ part : Part, registry.find? part.interface =
      some ⟨⟨none, givens.recipe settings part⟩, true, none⟩) (recent : since ≤ registry.nextId) :
    Assembled settings givens none since registry := by
  refine ⟨fun part => ⟨none, bound part⟩, fun part component held => ?_, recent, nofun⟩
  rw [kept_eq (bound part)] at held
  exact absurd held nofun

theorem of_configure (registry : Registry) (settings : Settings)
    (recent : since ≤ (registry.configure settings).nextId) :
    Assembled settings .nothing none since (registry.configure settings) := by
  refine of_empty (fun part => ?_) recent
  rw [find?_configure]
  cases part <;> rfl

theorem find?_eq (assembled : Assembled settings givens late since registry) (part : Part) :
    registry.find? part.interface =
      some ⟨⟨none, givens.recipe settings part⟩, true, registry.kept part.interface⟩ := by
  obtain ⟨cached, found⟩ := assembled.bound part
  rw [kept_eq found, found]

theorem late_eq_none (assembled : Assembled settings givens late since registry)
    (empty : registry.kept .repository = none) : late = none := by
  cases late with
  | none => rfl
  | some files =>
    have built := assembled.built rfl
    rw [empty] at built
    exact absurd built (by decide)

theorem kept_remember (assembled : Assembled settings givens late since registry)
    (present : component.isNull = false) (part other : Part) :
    (registry.remember part.interface component).kept other.interface =
      if part = other then some component else registry.kept other.interface := by
  have isKept : keep component = some component := by
    simp [keep, present]
  rw [Registry.kept_remember (assembled.find?_eq part), isKept]
  simp only [Part.interface_inj]

theorem stays_remember (assembled : Assembled settings givens late since registry)
    (present : component.isNull = false) (empty : registry.kept part.interface = none)
    (other : Part) (held : Component) (isHeld : registry.kept other.interface = some held) :
    (registry.remember part.interface component).kept other.interface = some held := by
  have apart : part ≠ other := by
    rintro rfl
    cases empty.symm.trans isHeld
  rw [assembled.kept_remember present, if_neg apart, isHeld]

theorem remember (assembled : Assembled settings givens late since registry)
    (empty : registry.kept part.interface = none)
    (fits : Fits settings givens late since (fun other => registry.kept other.interface) part
      component) :
    Assembled settings givens late since (registry.remember part.interface component) := by
  have stays := assembled.stays_remember fits.not_null empty
  refine ⟨fun other => ?_, fun other held isHeld => ?_, ?_, fun isLate => ?_⟩
  · rw [find?_remember, assembled.find?_eq other]
    split <;> exact ⟨_, rfl⟩
  · rw [assembled.kept_remember fits.not_null] at isHeld
    split at isHeld
    · rename_i same
      cases Option.some.inj isHeld
      exact same ▸ fits.mono stays
    · exact (assembled.fits other held isHeld).mono stays
  · rw [nextId_remember]
    exact assembled.recent
  · obtain ⟨repository, isHeld⟩ := Option.isSome_iff_exists.mp (assembled.built isLate)
    exact Option.isSome_of_mem (stays .repository repository isHeld)

theorem progress_remember (assembled : Assembled settings givens late since registry)
    (empty : registry.kept part.interface = none) (present : component.isNull = false)
    (label : Option String) :
    Progress registry (registry.remember part.interface component) [⟨part.interface, label⟩] := by
  refine ⟨Nat.le_of_eq (nextId_remember ..).symm, assembled.stays_remember present empty,
    fun other => ?_⟩
  rw [assembled.kept_remember present]
  by_cases same : part = other
  · subst same
    rw [empty, if_pos rfl]
    simp
  · rw [if_neg same]
    simp [same]

/-- A part is supplied by making it, when it fits what is kept by the end of its recipe and the recipe
left alone what stands no lower. -/
theorem supplies_of_made (after : Assembled settings givens late since between)
    (empty : registry.kept part.interface = none) (progress : Progress registry between runs)
    (fits : Fits settings givens late since (fun other => between.kept other.interface) part
      component)
    (steady : ∀ other : Part, part.rank ≤ other.rank →
      between.kept other.interface = registry.kept other.interface) :
    Supplies settings givens late since registry part component
      (between.remember part.interface component) (⟨part.interface, none⟩ :: runs) := by
  have stillEmpty : between.kept part.interface = none :=
    (steady part (Nat.le_refl _)).trans empty
  have made := progress.trans (after.progress_remember stillEmpty fits.not_null none)
  refine ⟨?_, after.remember stillEmpty fits, made.perm (List.perm_append_singleton _ _),
    fun other above => ?_⟩
  · rw [after.kept_remember fits.not_null, if_pos rfl]
  · have apart : part ≠ other := by
      rintro rfl
      exact absurd above (Nat.lt_irrefl _)
    rw [after.kept_remember fits.not_null, if_neg apart, steady other (Nat.le_of_lt above)]

/-! ### One part after the other -/

theorem reached_of_kept (assembled : Assembled settings givens late since registry)
    (held : registry.kept part.interface = some component) (depth : Nat) :
    Reached settings givens late since registry part (depth + 1) :=
  .inl ⟨component, registry, [], resolveWithin_of_cached depth (assembled.find?_eq part) held,
    held, assembled, .refl registry, fun _ _ => rfl⟩

theorem reached_of_made (assembled : Assembled settings givens late since registry) {depth : Nat}
    (empty : registry.kept part.interface = none)
    (follows : follow (resolveWithin depth) (givens.recipe settings part) registry =
      ⟨.ok component, between, runs⟩)
    (after : Assembled settings givens late since between) (progress : Progress registry between runs)
    (fits : Fits settings givens late since (fun other => between.kept other.interface) part
      component)
    (steady : ∀ other : Part, part.rank ≤ other.rank →
      between.kept other.interface = registry.kept other.interface) :
    Reached settings givens late since registry part (depth + 1) :=
  .inl ⟨component, _, _, resolveWithin_of_made (assembled.find?_eq part) empty follows,
    after.supplies_of_made empty progress fits steady⟩

theorem reached_of_endless (assembled : Assembled settings givens late since registry) {depth : Nat}
    (empty : registry.kept part.interface = none)
    (endless : (follow (resolveWithin depth) (givens.recipe settings part) registry).Endless)
    (shallow : depth < part.rank) :
    Reached settings givens late since registry part (depth + 1) := by
  have found := assembled.find?_eq part
  rw [empty] at found
  obtain ⟨looping, broken⟩ := endless
  refine .inr ⟨shallow, looping, ?_⟩
  simp only [resolveWithin, found, broken]

theorem reached_of_given (assembled : Assembled settings givens late since registry)
    (empty : registry.kept part.interface = none) {given : Component}
    (isGiven : givens.given part = some given) (depth : Nat) :
    Reached settings givens late since registry part (depth + 1) := by
  have recipe : givens.recipe settings part = .give given := by
    unfold Givens.recipe
    rw [isGiven]
  exact assembled.reached_of_made empty (by rw [recipe]; rfl) assembled (.refl registry)
    (.of_given isGiven) fun _ _ => rfl

theorem reached_of_fresh (assembled : Assembled settings givens late since registry)
    (empty : registry.kept part.interface = none) (notGiven : givens.given part = none)
    {make : Nat → Component} (recipe : part.recipe settings = .fresh fun id => .give (make id))
    (made : Made settings late since (fun other => registry.kept other.interface) part
      (make registry.nextId)) (depth : Nat) :
    Reached settings givens late since registry part (depth + 1) := by
  have same : givens.recipe settings part = .fresh fun id => .give (make id) := by
    unfold Givens.recipe
    rw [notGiven, recipe]
  exact assembled.reached_of_made empty (by rw [same]; rfl) assembled.newId (.newId registry)
    (.of_made notGiven made) fun _ _ => rfl

theorem reached_lowest (assembled : Assembled settings givens late since registry)
    (lowest : part.rank = 0) (depth : Nat) :
    Reached settings givens late since registry part depth := by
  cases depth with
  | zero => exact .inr ⟨Nat.zero_le _, _, rfl⟩
  | succ depth =>
    cases empty : registry.kept part.interface with
    | some component => exact assembled.reached_of_kept empty depth
    | none =>
      cases isGiven : givens.given part with
      | some given => exact assembled.reached_of_given empty isGiven depth
      | none =>
        cases part with
        | fileSystem =>
          exact assembled.reached_of_fresh empty isGiven rfl (.fileSystem assembled.recent) depth
        | scoring =>
          exact assembled.reached_of_fresh empty isGiven rfl (.scoring assembled.recent) depth
        | documentLoader =>
          exact assembled.reached_of_fresh empty isGiven rfl (.documentLoader assembled.recent) depth
        | repository => exact absurd lowest (by decide)
        | extractor => exact absurd lowest (by decide)

theorem reached_repository (assembled : Assembled settings givens late since registry)
    (depth : Nat) : Reached settings givens late since registry .repository depth := by
  cases depth with
  | zero => exact .inr ⟨Nat.zero_le _, _, rfl⟩
  | succ depth =>
    cases empty : registry.kept (Part.interface .repository) with
    | some component => exact assembled.reached_of_kept empty depth
    | none =>
      rcases assembled.reached_lowest (rfl : Part.rank .fileSystem = 0) depth with
        ⟨files, withFiles, firstRuns, resolved, first⟩ | ⟨shallow, looping, broken⟩
      · rcases first.assembled.reached_lowest (rfl : Part.rank .scoring = 0) depth with
          ⟨scoring, final, secondRuns, resolved', second⟩ | ⟨shallow, looping, broken⟩
        · have truthy := (second.assembled.fits .scoring scoring second.kept).isTruthy
          have scores : resolveWithin depth withFiles .scoring = _ := resolved'
          have follows : follow (resolveWithin depth) (givens.recipe settings .repository) registry =
              ⟨.ok (.repository final.nextId files scoring settings.mode), final.newId.2,
                firstRuns ++ (secondRuns ++ [])⟩ := by
            refine (follow_need_of_ok _ resolved).trans ?_
            rw [follow_need_of_ok _ scores]
            simp only [follow, Registry.newId, truthy, if_true]
          have steady : ∀ other : Part, Part.rank .repository ≤ other.rank →
              final.kept other.interface = registry.kept other.interface := fun other above =>
            (second.higher other above).trans (first.higher other above)
          -- As long as there is no repository, none of its file systems can have been replaced.
          have notLate := second.assembled.late_eq_none
            ((steady .repository (Nat.le_refl _)).trans empty)
          have heldFiles := second.progress.stays .fileSystem files first.kept
          refine assembled.reached_of_made empty follows second.assembled.newId
            (first.progress.trans (second.progress.trans (.newId _))) (.of_made rfl ?_) steady
          refine .repository second.assembled.recent ?_ second.kept
          rw [notLate]
          exact heldFiles
        · have endless : (follow (resolveWithin depth) (givens.recipe settings .repository)
              registry).Endless :=
            ⟨looping, (congrArg Resolution.outcome (follow_need_of_ok _ resolved)).trans
              (follow_need_of_error _ broken)⟩
          exact assembled.reached_of_endless empty endless (Nat.lt_succ_of_le shallow)
      · exact assembled.reached_of_endless empty ⟨looping, follow_need_of_error _ broken⟩
          (Nat.lt_succ_of_le shallow)

theorem reached_extractor (assembled : Assembled settings givens late since registry)
    (depth : Nat) : Reached settings givens late since registry .extractor depth := by
  cases depth with
  | zero => exact .inr ⟨Nat.zero_le _, _, rfl⟩
  | succ depth =>
    cases empty : registry.kept (Part.interface .extractor) with
    | some component => exact assembled.reached_of_kept empty depth
    | none =>
      rcases assembled.reached_repository depth with
        ⟨repository, final, runs, resolved, first⟩ | ⟨shallow, looping, broken⟩
      · have follows : follow (resolveWithin depth) (givens.recipe settings .extractor) registry =
            ⟨.ok (.extractor final.nextId repository settings.mode settings.strict
              settings.timeLimit), final.newId.2, runs ++ []⟩ :=
          follow_need_of_ok _ resolved
        exact assembled.reached_of_made empty follows first.assembled.newId
          (first.progress.trans (.newId _))
          (.of_made rfl (.extractor first.assembled.recent first.kept)) first.higher
      · exact assembled.reached_of_endless empty ⟨looping, follow_need_of_error _ broken⟩
          (Nat.lt_succ_of_le shallow)

theorem reached (assembled : Assembled settings givens late since registry) (part : Part)
    (depth : Nat) : Reached settings givens late since registry part depth := by
  cases part with
  | fileSystem => exact assembled.reached_lowest rfl depth
  | scoring => exact assembled.reached_lowest rfl depth
  | repository => exact assembled.reached_repository depth
  | extractor => exact assembled.reached_extractor depth
  | documentLoader => exact assembled.reached_lowest rfl depth

theorem resolve_eq (assembled : Assembled settings givens late since registry) (part : Part) :
    ∃ component final runs, registry.resolve part.interface = ⟨.ok component, final, runs⟩ ∧
      Supplies settings givens late since registry part component final runs := by
  have known : ∀ other : Part, other.interface ∈ registry.interfaces := fun other =>
    isSome_find?_iff.mp (Option.isSome_of_mem (assembled.find?_eq other))
  have wide : [Interface.repository, .extractor] ⊆ registry.interfaces := by
    intro interface member
    rcases List.mem_pair.mp member with rfl | rfl
    · exact known .repository
    · exact known .extractor
  -- Two registrations are enough: factories of parts are nested no deeper than three.
  have room : 2 ≤ registry.interfaces.length :=
    (List.subperm_of_subset (by decide) wide).length_le
  rw [interfaces, List.length_map] at room
  have low : part.rank ≤ 2 := by cases part <;> decide
  rcases assembled.reached part (registry.registrations.length + 1) with supplied | ⟨shallow, -⟩
  · exact supplied
  · omega

theorem ends (assembled : Assembled settings givens late since registry) (part : Part) :
    ¬ (registry.resolve part.interface).Endless := by
  obtain ⟨component, final, runs, resolved, -⟩ := assembled.resolve_eq part
  rintro ⟨looping, broken⟩
  rw [resolved] at broken
  cases broken

theorem outcome_resolve_of_kept (assembled : Assembled settings givens late since registry)
    (part : Part) (held : registry.kept part.interface = some component) :
    (registry.resolve part.interface).outcome = .ok component := by
  rw [resolve, resolveWithin_of_cached _ (assembled.find?_eq part) held]

end Assembled

/-! ## Whatever else is resolved -/

section
variable {settings : Settings} {givens : Givens} {late : Option Component} {since : Nat}
  {registry : Registry}

/-- What is resolved keeps the parts together, whether it succeeds or fails, as long as it comes to
an end. -/
def KeepsTogether (settings : Settings) (givens : Givens) (late : Option Component) (since : Nat)
    (registry : Registry) (resolution : Resolution) : Prop :=
  ¬ resolution.Endless →
    Assembled settings givens late since resolution.registry ∧
      Progress registry resolution.registry resolution.runs

theorem keepsTogether_follow {resolve : Registry → Interface → Resolution}
    (resolves : ∀ registry interface, Assembled settings givens late since registry →
      KeepsTogether settings givens late since registry (resolve registry interface))
    (recipe : Recipe) (assembled : Assembled settings givens late since registry) :
    KeepsTogether settings givens late since registry (follow resolve recipe registry) := by
  induction recipe generalizing registry with
  | give component => exact fun _ => ⟨assembled, .refl registry⟩
  | fail label => exact fun _ => ⟨assembled, .refl registry⟩
  | fresh next ih =>
    intro ends
    obtain ⟨after, progress⟩ := ih registry.nextId assembled.newId ends
    exact ⟨after, (Progress.newId registry).trans progress⟩
  | need interface next ih =>
    have needed := resolves registry interface assembled
    cases resolved : resolve registry interface with
    | mk outcome between runs =>
      rw [resolved] at needed
      cases outcome with
      | error error =>
        have failed : follow resolve (.need interface next) registry =
            ⟨.error error, between, runs⟩ := by
          simp only [follow, resolved]
        rw [failed]
        exact needed
      | ok component =>
        rw [follow_need_of_ok next resolved]
        intro ends
        obtain ⟨halfway, first⟩ := needed (by rintro ⟨looping, broken⟩; cases broken)
        obtain ⟨after, second⟩ := ih component halfway ends
        exact ⟨after, first.trans second⟩

theorem find?_remember_other (registry : Registry) (name : String) (component : Component)
    (part : Part) :
    (registry.remember (.other name) component).find? part.interface =
      registry.find? part.interface := by
  rw [find?_remember, if_neg fun same => part.interface_ne_other name same.symm]

theorem keepsTogether_resolveWithin (depth : Nat) (interface : Interface)
    (assembled : Assembled settings givens late since registry) :
    KeepsTogether settings givens late since registry (resolveWithin depth registry interface) := by
  induction depth generalizing registry interface with
  | zero => exact fun ends => absurd ⟨interface, rfl⟩ ends
  | succ depth ih =>
    rcases Part.exists_or_other interface with ⟨part, rfl⟩ | ⟨name, rfl⟩
    · rcases assembled.reached part (depth + 1) with
        ⟨component, final, runs, resolved, supplies⟩ | ⟨-, endless⟩
      · rw [resolved]
        exact fun _ => ⟨supplies.assembled, supplies.progress⟩
      · exact fun ends => absurd endless ends
    · cases found : registry.find? (.other name) with
      | none =>
        simp only [resolveWithin, found]
        exact fun _ => ⟨assembled, .refl registry⟩
      | some registration =>
        cases empty : registration.cached with
        | some component =>
          rw [resolveWithin_of_cached depth found empty]
          exact fun _ => ⟨assembled, .refl registry⟩
        | none =>
          -- Its own factory runs first, and is none of those of the parts.
          let run : Run := ⟨.other name, registration.factory.label⟩
          have begun : Progress registry registry [run] :=
            .idle (Nat.le_refl _) (fun _ => rfl) fun part => by
              simp [run, (part.interface_ne_other name).symm]
          have made : KeepsTogether settings givens late since registry
              (follow (resolveWithin depth) registration.factory.recipe registry) :=
            keepsTogether_follow (fun _ interface => ih interface) _ assembled
          cases follows : follow (resolveWithin depth) registration.factory.recipe registry with
          | mk outcome between runs =>
            rw [follows] at made
            cases outcome with
            | error error =>
              have failed : resolveWithin (depth + 1) registry (.other name) =
                  ⟨.error error, between, run :: runs⟩ := by
                simp only [resolveWithin, found, empty, follows, run]
              rw [failed]
              intro ends
              obtain ⟨after, progress⟩ := made ends
              exact ⟨after, begun.trans progress⟩
            | ok component =>
              rw [resolveWithin_of_made found empty follows]
              intro _
              obtain ⟨after, progress⟩ := made (by rintro ⟨looping, broken⟩; cases broken)
              have same := find?_remember_other between name component
              have later := Nat.le_of_eq (nextId_remember between (.other name) component).symm
              have remembered : Progress registry (between.remember (.other name) component)
                  (runs ++ []) := progress.trans (.idle later same fun _ => rfl)
              rw [List.append_nil] at remembered
              exact ⟨after.idle later same, begun.trans remembered⟩

/-- Whatever is asked for besides the parts comes to an end, by an error or not. -/
def OthersEnd (registry : Registry) (asked : List Interface) : Prop :=
  ∀ above name below, asked = above ++ .other name :: below →
    ¬ ((registry.performAll (above.map .resolve)).resolve (.other name)).Endless

theorem OthersEnd.cons {interface : Interface} {rest : List Interface}
    (ends : registry.OthersEnd (interface :: rest)) :
    (registry.resolve interface).registry.OthersEnd rest := fun above name below split =>
  ends (interface :: above) name below (by rw [split, List.cons_append])

theorem keepsTogether_all {asked : List Interface}
    (assembled : Assembled settings givens late since registry) (ends : registry.OthersEnd asked) :
    Assembled settings givens late since (registry.performAll (asked.map .resolve)) ∧
      Progress registry (registry.performAll (asked.map .resolve))
        (registry.runs (asked.map .resolve)) := by
  induction asked generalizing registry with
  | nil => exact ⟨assembled, .refl registry⟩
  | cons interface rest ih =>
    have here : ¬ (registry.resolve interface).Endless := by
      rcases Part.exists_or_other interface with ⟨part, rfl⟩ | ⟨name, rfl⟩
      · exact assembled.ends part
      · exact ends [] name rest rfl
    obtain ⟨halfway, first⟩ := keepsTogether_resolveWithin _ interface assembled here
    obtain ⟨after, second⟩ := ih halfway ends.cons
    exact ⟨after, first.trans second⟩

end

end Registry

end Stencil
