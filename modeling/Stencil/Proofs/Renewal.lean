import Stencil.Proofs.Assembling

/-! What is resolved after a configuration or a reset is made anew.

Whatever a registry went through before, then nothing is kept for any part, and what is registered for
the parts is known from the operations alone: resolving changes no registration, also where it fails
or never ends. So the parts that are resolved from then on are made from the settings of the last
configuration, each of them once, and hold each other.
-/

set_option autoImplicit false

namespace Stencil

namespace Registry

/-! ## Histories -/

/-- A change of a registry: a single operation, or the configuration of all parts. -/
inductive Change where
  | operation (operation : Operation)
  | configure (settings : Settings)

def change (registry : Registry) : Change → Registry
  | .operation operation => registry.perform operation
  | .configure settings => registry.configure settings

def changeAll (registry : Registry) (changes : List Change) : Registry :=
  changes.foldl change registry

/-- The registrations that a configuration consists of. -/
def wiring (settings : Settings) : List Operation :=
  [Part.fileSystem, .scoring, .repository, .extractor, .documentLoader].map fun part =>
    .register part.interface ⟨none, part.recipe settings⟩ true

theorem performAll_wiring (registry : Registry) (settings : Settings) :
    registry.performAll (wiring settings) = registry.configure settings :=
  rfl

def Change.operations : Change → List Operation
  | .operation single => [single]
  | .configure settings => wiring settings

theorem performAll_cons (registry : Registry) (operation : Operation) (rest : List Operation) :
    registry.performAll (operation :: rest) = (registry.perform operation).performAll rest :=
  rfl

theorem performAll_append (registry : Registry) (first second : List Operation) :
    registry.performAll (first ++ second) = (registry.performAll first).performAll second :=
  List.foldl_append ..

theorem changeAll_eq (registry : Registry) (changes : List Change) :
    registry.changeAll changes = registry.performAll (changes.flatMap Change.operations) := by
  induction changes generalizing registry with
  | nil => rfl
  | cons change rest ih =>
    rw [List.flatMap_cons, performAll_append, ← ih]
    cases change with
    | operation => rfl
    | configure settings => exact congrArg (changeAll · rest) (performAll_wiring registry settings).symm

theorem changeAll_append (registry : Registry) (first second : List Change) :
    registry.changeAll (first ++ second) = (registry.changeAll first).changeAll second :=
  List.foldl_append ..

/-! ## What is registered -/

/-- The factory that is registered for an interface, and whether its component is kept. -/
def bound (registry : Registry) (interface : Interface) : Option (Factory × Bool) :=
  (registry.find? interface).map fun registration => (registration.factory, registration.singleton)

def Operation.binding : Operation → Option (Factory × Bool)
  | register _ factory singleton => some (factory, singleton)
  | registerInstance _ component => some (⟨none, .give component⟩, true)
  | resolve _ => none
  | reset => none

theorem bound_put (registry : Registry) (interface other : Interface) (registration : Registration) :
    (registry.put interface registration).bound other =
      if interface = other then some (registration.factory, registration.singleton)
      else registry.bound other := by
  unfold bound
  rw [find?_put]
  split <;> rfl

theorem bound_remember (registry : Registry) (interface other : Interface) (component : Component) :
    (registry.remember interface component).bound other = registry.bound other := by
  unfold bound
  rw [find?_remember]
  cases registry.find? other with
  | none => split <;> rfl
  | some registration => split <;> rfl

theorem bound_reset (registry : Registry) (interface : Interface) :
    registry.reset.bound interface = registry.bound interface := by
  unfold bound
  rw [find?_reset, Option.map_map]
  rfl

theorem bound_follow {resolve : Registry → Interface → Resolution}
    (resolves : ∀ registry asked interface,
      (resolve registry asked).registry.bound interface = registry.bound interface)
    (recipe : Recipe) (registry : Registry) (interface : Interface) :
    (follow resolve recipe registry).registry.bound interface = registry.bound interface := by
  induction recipe generalizing registry with
  | give => rfl
  | fail => rfl
  | fresh next ih => exact ih registry.nextId registry.newId.2
  | need asked next ih =>
    have needed := resolves registry asked interface
    cases resolved : (resolve registry asked).outcome with
    | error error => simp only [follow, resolved, needed]
    | ok component => simp only [follow, resolved, ih, needed]

theorem bound_resolveWithin (depth : Nat) (registry : Registry) (asked interface : Interface) :
    (resolveWithin depth registry asked).registry.bound interface = registry.bound interface := by
  induction depth generalizing registry asked interface with
  | zero => rfl
  | succ depth ih =>
    cases found : registry.find? asked with
    | none => simp only [resolveWithin, found]
    | some registration =>
      cases empty : registration.cached with
      | some component => simp only [resolveWithin, found, empty]
      | none =>
        have made := bound_follow ih registration.factory.recipe registry interface
        simp only [resolveWithin, found, empty]
        split
        · rw [bound_remember, made]
        · exact made

theorem bound_perform (registry : Registry) (operation : Operation) (interface : Interface) :
    (registry.perform operation).bound interface =
      if operation.Registers interface then operation.binding else registry.bound interface := by
  cases operation with
  | register known factory singleton => exact bound_put ..
  | registerInstance known component => exact bound_put ..
  | resolve asked => exact bound_resolveWithin _ registry asked interface
  | reset => exact bound_reset registry interface

theorem bound_performAll {registry : Registry} {interface : Interface} {known : Option Operation}
    {operations : List Operation} {last : Operation}
    (isLatest : Operation.latest interface known operations = some last)
    (before : ∀ operation ∈ known, registry.bound interface = operation.binding) :
    (registry.performAll operations).bound interface = last.binding := by
  -- Before the first registration nothing is known, and what is found then does not matter.
  induction operations generalizing registry known with
  | nil => exact before last isLatest
  | cons operation rest ih =>
    rw [performAll_cons]
    refine ih isLatest fun other isKnown => ?_
    rw [bound_perform]
    split at isKnown
    · rename_i registers
      cases isKnown
      exact if_pos registers
    · rename_i idle
      rw [if_neg idle]
      exact before other isKnown

theorem find?_of_bound {registry : Registry} {interface : Interface} {factory : Factory}
    (isBound : registry.bound interface = some (factory, true)) :
    registry.reset.find? interface = some ⟨factory, true, none⟩ := by
  rw [find?_reset]
  unfold bound at isBound
  obtain ⟨registration, found, same⟩ := Option.map_eq_some_iff.mp isBound
  obtain ⟨rfl, kept⟩ := Prod.mk.inj same
  rw [found, ← kept, Option.map_some]

/-! ## Renewal -/

/-- What is registered for a part: the given component, or its recipe. -/
def registration (settings : Settings) (givens : Givens) (part : Part) : Operation :=
  match givens.given part with
  | some given => .registerInstance part.interface given
  | none => .register part.interface ⟨none, part.recipe settings⟩ true

theorem binding_registration (settings : Settings) (givens : Givens) (part : Part) :
    (registration settings givens part).binding =
      some (⟨none, givens.recipe settings part⟩, true) := by
  unfold registration Givens.recipe
  cases givens.given part <;> rfl

/-- A history ends in a configuration, or in a reset when every part stands registered as configured
or given. -/
inductive Renews (settings : Settings) : Givens → List Change → Prop where
  | configure {earlier : List Change} :
      Renews settings .nothing (earlier ++ [.configure settings])
  | reset {earlier : List Change} {givens : Givens} :
      (∀ part : Part, Operation.latest part.interface none (earlier.flatMap Change.operations) =
        some (registration settings givens part)) →
      Renews settings givens (earlier ++ [.operation .reset])

theorem Renews.assembled {settings : Settings} {givens : Givens} {history : List Change}
    (renews : Renews settings givens history) (origin : Registry) :
    Assembled settings givens none (origin.changeAll history).nextId (origin.changeAll history) := by
  cases renews with
  | @configure earlier =>
    rw [changeAll_append]
    exact .of_configure (origin.changeAll earlier) settings (Nat.le_refl _)
  | @reset earlier _ latest =>
    rw [changeAll_append]
    refine .of_empty (fun part => find?_of_bound ?_) (Nat.le_refl _)
    rw [changeAll_eq, bound_performAll (latest part) nofun, binding_registration]

/-- Parts that hold each other, each given or made from the settings, with an identity that was
unused before. -/
structure Assembly (settings : Settings) (givens : Givens) (since : Nat) (parts : Part → Component) :
    Prop where
  given : ∀ part given, givens.given part = some given → parts part = given
  fileSystem : givens.files = none →
    ∃ id ≥ since, parts .fileSystem = .fileSystem id (.disk settings.templateEncoding)
  scoring : givens.scorer = none → ∃ id ≥ since, parts .scoring = .scoring id
  repository : ∃ id ≥ since, parts .repository =
    .repository id (parts .fileSystem) (parts .scoring) settings.mode
  extractor : ∃ id ≥ since, parts .extractor =
    .extractor id (parts .repository) settings.mode settings.strict settings.timeLimit
  documentLoader : ∃ id ≥ since, parts .documentLoader =
    .documentLoader id settings.templateEncoding

section
variable {settings : Settings} {givens : Givens} {since : Nat}

theorem Assembly.of_fits {parts : Part → Component}
    (fits : ∀ part, Fits settings givens none since (fun other => some (parts other)) part
      (parts part)) : Assembly settings givens since parts where
  given part _ isGiven := (fits part).eq_given isGiven
  fileSystem notGiven := by
    have made := (fits .fileSystem).made notGiven
    generalize parts .fileSystem = component at made ⊢
    cases made with
    | fileSystem recent => exact ⟨_, recent, rfl⟩
  scoring notGiven := by
    have made := (fits .scoring).made notGiven
    generalize parts .scoring = component at made ⊢
    cases made with
    | scoring recent => exact ⟨_, recent, rfl⟩
  repository := by
    have made := (fits .repository).made rfl
    generalize parts .repository = component at made ⊢
    cases made with
    | repository recent files scoring =>
      cases files
      cases scoring
      exact ⟨_, recent, rfl⟩
  extractor := by
    have made := (fits .extractor).made rfl
    generalize parts .extractor = component at made ⊢
    cases made with
    | extractor recent repository =>
      cases repository
      exact ⟨_, recent, rfl⟩
  documentLoader := by
    have made := (fits .documentLoader).made rfl
    generalize parts .documentLoader = component at made ⊢
    cases made with
    | documentLoader recent => exact ⟨_, recent, rfl⟩

/-- What is kept at any time belongs to parts that hold each other: those that are still missing can
be made. -/
theorem Assembled.exists_assembly {registry : Registry}
    (assembled : Assembled settings givens none since registry) :
    ∃ parts : Part → Component, Assembly settings givens since parts ∧
      ∀ (part : Part) component, registry.kept part.interface = some component →
        component = parts part := by
  obtain ⟨extractor, between, _, -, first⟩ := assembled.resolve_eq .extractor
  obtain ⟨documentLoader, final, _, -, second⟩ := first.assembled.resolve_eq .documentLoader
  have fits := second.assembled.fits
  have extractorHeld := second.progress.stays .extractor extractor first.kept
  have all : ∀ part : Part, ∃ component, final.kept part.interface = some component := by
    cases (fits .extractor extractor extractorHeld).made rfl with
    | extractor _ repositoryHeld =>
      cases (fits .repository _ repositoryHeld).made rfl with
      | repository _ filesHeld scoringHeld =>
        intro part
        cases part with
        | fileSystem => exact ⟨_, filesHeld⟩
        | scoring => exact ⟨_, scoringHeld⟩
        | repository => exact ⟨_, repositoryHeld⟩
        | extractor => exact ⟨_, extractorHeld⟩
        | documentLoader => exact ⟨_, second.kept⟩
  choose parts held using all
  refine ⟨parts, .of_fits fun part => ?_, fun part component isHeld => ?_⟩
  · have same : (fun other : Part => final.kept other.interface) = fun other => some (parts other) :=
      funext held
    exact same ▸ fits part (parts part) (held part)
  · have stays := second.progress.stays part component (first.progress.stays part component isHeld)
    exact Option.some.inj (stays.symm.trans (held part))

end

theorem OthersEnd.of_parts {registry : Registry} {asked : List Interface}
    (only : ∀ interface ∈ asked, ∃ part : Part, part.interface = interface) :
    registry.OthersEnd asked := by
  rintro above name below rfl
  obtain ⟨part, same⟩ := only (.other name) (List.mem_append_right above (List.mem_cons_self ..))
  exact absurd same (part.interface_ne_other name)

theorem OthersEnd.append {registry : Registry} {first second : List Interface}
    (ends : registry.OthersEnd (first ++ second)) :
    registry.OthersEnd first ∧ (registry.performAll (first.map .resolve)).OthersEnd second := by
  constructor
  · intro above name below split
    exact ends above name (below ++ second) (by rw [split, List.append_assoc, List.cons_append])
  · intro above name below split
    have broken := ends (first ++ above) name below (by rw [split, List.append_assoc])
    rwa [List.map_append, performAll_append] at broken

/-- After a configuration or a reset the factory of every part runs at most once, whatever is
resolved, and the parts that are handed out are made from the settings and hold each other. -/
theorem parts_after_renewal {settings : Settings} {givens : Givens} {history : List Change}
    (renews : Renews settings givens history) (origin : Registry) {asked : List Interface}
    (ends : (origin.changeAll history).OthersEnd asked) :
    let start := origin.changeAll history
    (∀ part : Part, (start.runs (asked.map .resolve)).countP (·.interface = part.interface) ≤ 1) ∧
    ∃ parts : Part → Component, Assembly settings givens start.nextId parts ∧
      ∀ above part below, asked = above ++ part.interface :: below →
        ((start.performAll (above.map .resolve)).resolve part.interface).outcome =
          .ok (parts part) := by
  intro start
  obtain ⟨after, progress⟩ := keepsTogether_all (renews.assembled origin) ends
  obtain ⟨parts, assembly, same⟩ := after.exists_assembly
  refine ⟨progress.countP_le, parts, assembly, ?_⟩
  rintro above part below rfl
  obtain ⟨endsAbove, endsBelow⟩ := ends.append
  obtain ⟨here, -⟩ := keepsTogether_all (renews.assembled origin) endsAbove
  obtain ⟨component, next, runs, resolved, supplies⟩ := here.resolve_eq part
  -- What is handed out now is kept and stays until the end.
  have onwards := endsBelow.cons
  rw [resolved] at onwards
  obtain ⟨-, later⟩ := keepsTogether_all supplies.assembled onwards
  have stays := later.stays part component supplies.kept
  rw [List.map_append, performAll_append, List.map_cons, performAll_cons, perform, resolved] at same
  rw [resolved, same part component stays]

/-- The extractor is made from the later settings and holds the file system that was registered. -/
theorem parts_after_renewal_of_reset :
    let files : Component := .fileSystem 7 (.memory .empty)
    let history : List Change := [.configure { Settings.defaults with mode := .line },
      .operation (.resolve .extractor), .configure .defaults,
      .operation (.registerInstance .fileSystem files), .operation (.resolve .repository),
      .operation .reset]
    let asked : List Interface := [.documentLoader, .extractor, .fileSystem]
    let start := Registry.empty.changeAll history
    (start.runs (asked.map .resolve)).countP (·.interface = .fileSystem) ≤ 1 ∧
    ∃ id repositoryId scoringId,
      ((start.performAll [.resolve .documentLoader]).resolve .extractor).outcome =
        .ok (.extractor id (.repository repositoryId files (.scoring scoringId) .whole) .whole false
          Settings.defaults.timeLimit) := by
  intro files history asked start
  let givens : Givens := ⟨some files, none, by simp [files, Component.isNull], by simp⟩
  have renews : Renews .defaults givens history := by
    show Renews .defaults givens (history.dropLast ++ [.operation .reset])
    refine .reset fun part => ?_
    cases part <;> rfl
  have ends : start.OthersEnd asked := by
    refine .of_parts ?_
    simp only [asked, List.forall_mem_cons]
    exact ⟨⟨.documentLoader, rfl⟩, ⟨.extractor, rfl⟩, ⟨.fileSystem, rfl⟩, by simp⟩
  obtain ⟨once, parts, assembly, handsOut⟩ := parts_after_renewal renews .empty ends
  refine ⟨once .fileSystem, ?_⟩
  obtain ⟨scoringId, -, scoring⟩ := assembly.scoring rfl
  obtain ⟨repositoryId, -, repository⟩ := assembly.repository
  obtain ⟨id, -, extractor⟩ := assembly.extractor
  rw [assembly.given .fileSystem files rfl, scoring] at repository
  rw [repository] at extractor
  exact ⟨id, repositoryId, scoringId, extractor ▸ handsOut [.documentLoader] .extractor _ rfl⟩

end Registry

end Stencil
