import Stencil.Proofs.Failing

/-! Resolving again after a failure.

A later resolution finds more components kept than the first one did, and makes others anew. Where a
factory goes the same way whichever of these it is handed, this makes no difference. What a recipe
means is therefore said in terms of the registry at the beginning, as if nothing were kept on the way.
Runs keep to that meaning, early and late, and so a failure comes up again.
-/

set_option autoImplicit false

namespace Stencil

/-- Two recipes go the same way as long as they are handed the same, whatever objects are new. -/
inductive Recipe.Alike (same : Component → Component → Prop) : Recipe → Recipe → Prop where
  | give {component other : Component} :
      same component other → Alike same (.give component) (.give other)
  | fail {label other : String} : Alike same (.fail label) (.fail other)
  | fresh {next other : Nat → Recipe} :
      (∀ id otherId, Alike same (next id) (other otherId)) → Alike same (.fresh next) (.fresh other)
  | need {interface : Interface} {next other : Component → Recipe} :
      (∀ component given, same component given → Alike same (next component) (other given)) →
      Alike same (.need interface next) (.need interface other)

namespace Registry

/-- Factories, except for some, go the same way each time, whichever of the same components they are
handed. If any two components are the same, this says that each factory asks for the same interfaces
each time. -/
structure Steady (same : Component → Component → Prop) (apart : List Interface)
    (registry : Registry) : Prop where
  refl : ∀ component, same component component
  alike : ∀ interface registration, registry.find? interface = some registration →
    interface ∉ apart → registration.factory.recipe.Alike same registration.factory.recipe

/-- What a recipe comes to, if nothing is kept on the way: a component, or the chain of interfaces
that it breaks off in. Interfaces set apart are where it breaks off in any case. -/
inductive Means (registry : Registry) (apart : List Interface) :
    Recipe → Except (List Interface) Component → Prop where
  | give {component : Component} : Means registry apart (.give component) (.ok component)
  | fail {label : String} : Means registry apart (.fail label) (.error [])
  | fresh {next : Nat → Recipe} {outcome : Except (List Interface) Component} :
      Means registry apart (next 0) outcome → Means registry apart (.fresh next) outcome
  | unregistered {interface : Interface} {next : Component → Recipe} :
      registry.find? interface = none → Means registry apart (.need interface next) (.error [])
  | cached {interface : Interface} {next : Component → Recipe} {registration : Registration}
      {kept : Component} {outcome : Except (List Interface) Component} :
      registry.find? interface = some registration → registration.cached = some kept →
      Means registry apart (next kept) outcome →
      Means registry apart (.need interface next) outcome
  | apart {interface : Interface} {next : Component → Recipe} {registration : Registration} :
      registry.find? interface = some registration → registration.cached = none →
      interface ∈ apart → Means registry apart (.need interface next) (.error [interface])
  | made {interface : Interface} {next : Component → Recipe} {registration : Registration}
      {made : Component} {outcome : Except (List Interface) Component} :
      registry.find? interface = some registration → registration.cached = none →
      interface ∉ apart → Means registry apart registration.factory.recipe (.ok made) →
      Means registry apart (next made) outcome →
      Means registry apart (.need interface next) outcome
  | inside {interface : Interface} {next : Component → Recipe} {registration : Registration}
      {chain : List Interface} :
      registry.find? interface = some registration → registration.cached = none →
      interface ∉ apart → Means registry apart registration.factory.recipe (.error chain) →
      Means registry apart (.need interface next) (.error (interface :: chain))

variable {same : Component → Component → Prop} {apart : List Interface}

theorem Means.unique {registry : Registry} {recipe : Recipe}
    {outcome other : Except (List Interface) Component} (means : Means registry apart recipe outcome)
    (also : Means registry apart recipe other) : outcome = other := by
  induction means generalizing other with
  | give => cases also; rfl
  | fail => cases also; rfl
  | fresh _ ih => cases also with | fresh also => exact ih also
  | unregistered missing => cases also <;> grind
  | cached found kept _ ih => cases also <;> grind
  | apart found empty isApart => cases also <;> grind
  | made found empty notApart _ _ innerIh ih => cases also <;> grind
  | inside found empty notApart _ ih => cases also <;> grind

/-- What is kept later on has the meaning that it had at the beginning. -/
structure Grows (same : Component → Component → Prop) (apart : List Interface)
    (start registry : Registry) : Prop where
  factories : registry.factories = start.factories
  found : ∀ interface registration, registry.find? interface = some registration →
    ∃ cached, start.find? interface = some { registration with cached } ∧
      (registration.cached = cached ∨ cached = none ∧ interface ∉ apart ∧
        ∃ made meant, registration.cached = some made ∧ same made meant ∧
          Means start apart registration.factory.recipe (.ok meant))

namespace Grows

variable {start registry : Registry}

theorem refl (start : Registry) : Grows same apart start start :=
  ⟨rfl, fun _ registration found => ⟨registration.cached, found, .inl rfl⟩⟩

theorem newId (grows : Grows same apart start registry) :
    Grows same apart start registry.newId.2 :=
  ⟨grows.factories, grows.found⟩

theorem find?_of_empty (grows : Grows same apart start registry) {interface : Interface}
    {registration : Registration} (found : registry.find? interface = some registration)
    (empty : registration.cached = none) : start.find? interface = some registration := by
  obtain ⟨cached, atStart, unchanged | ⟨-, -, made, -, isMade, -⟩⟩ := grows.found interface _ found
  · rwa [← unchanged] at atStart
  · cases empty.symm.trans isMade

theorem need_kept (grows : Grows same apart start registry) (steady : Steady same apart start)
    {interface : Interface} {registration : Registration}
    (found : registry.find? interface = some registration) {kept : Component}
    (isKept : registration.cached = some kept) :
    ∃ given, same kept given ∧ ∀ (next : Component → Recipe) outcome,
      Means start apart (next given) outcome → Means start apart (.need interface next) outcome := by
  obtain ⟨cached, atStart, unchanged | ⟨empty, notApart, made, given, isMade, agrees, means⟩⟩ :=
    grows.found interface _ found
  · exact ⟨kept, steady.refl kept, fun _ _ => .cached atStart (unchanged.symm.trans isKept)⟩
  · cases isKept.symm.trans isMade
    exact ⟨given, agrees, fun _ _ => .made atStart empty notApart means⟩

theorem remember (grows : Grows same apart start registry) {interface : Interface}
    {registration : Registration} (found : start.find? interface = some registration)
    (empty : registration.cached = none) (notApart : interface ∉ apart) {made meant : Component}
    (agrees : same made meant) (means : Means start apart registration.factory.recipe (.ok meant)) :
    Grows same apart start (registry.remember interface made) := by
  refine ⟨(factories_remember ..).trans grows.factories, fun other registration' found' => ?_⟩
  rw [find?_remember] at found'
  split at found'
  · rename_i here
    subst here
    obtain ⟨before, there, rfl⟩ := Option.map_eq_some_iff.mp found'
    obtain ⟨cached, atStart, history⟩ := grows.found interface before there
    cases found.symm.trans atStart
    refine ⟨cached, found, ?_⟩
    dsimp only at empty ⊢
    split
    · cases isKept : keep made with
      | none => exact .inl empty.symm
      | some kept =>
        obtain ⟨rfl, -⟩ := keep_eq_some_iff.mp isKept
        exact .inr ⟨empty, notApart, made, meant, rfl, agrees, means⟩
    · exact history
  · exact grows.found other registration' found'

theorem kept_eq_none (grows : Grows same apart start registry) {interface : Interface}
    (isApart : interface ∈ apart) (empty : start.kept interface = none) :
    registry.kept interface = none := by
  cases found : registry.find? interface with
  | none => rw [kept, found, Option.bind_none]
  | some registration =>
    obtain ⟨cached, atStart, unchanged | ⟨-, notApart, -⟩⟩ := grows.found interface _ found
    · rw [kept_eq found, unchanged, ← empty, kept_eq atStart]
    · exact absurd isApart notApart

end Grows

section Runs

variable {start registry final : Registry} {busy : List Interface} {recipe meantRecipe : Recipe}
  {calls : List Call}

theorem Follows.means {component : Component}
    (follows : Follows busy recipe registry component calls final)
    (steady : Steady same apart start) (grows : Grows same apart start registry)
    (avoids : ∀ call ∈ calls, call.interface ∉ apart) (alike : recipe.Alike same meantRecipe) :
    Grows same apart start final ∧
      ∃ meant, same component meant ∧ Means start apart meantRecipe (.ok meant) := by
  induction follows generalizing meantRecipe with
  | give =>
    cases alike with
    | give agrees => exact ⟨grows, _, agrees, .give⟩
  | fresh _ ih =>
    cases alike with
    | fresh alike =>
      obtain ⟨grows, meant, agrees, means⟩ := ih grows.newId avoids (alike _ 0)
      exact ⟨grows, meant, agrees, .fresh means⟩
  | cached found isKept _ ih =>
    cases alike with
    | need alike =>
      obtain ⟨given, agreed, goesOn⟩ := grows.need_kept steady found isKept
      obtain ⟨grows, meant, agrees, means⟩ :=
        ih grows (List.forall_mem_cons.mp avoids).2 (alike _ _ agreed)
      exact ⟨grows, meant, agrees, goesOn _ _ means⟩
  | made found isEmpty _ _ _ innerIh ih =>
    cases alike with
    | need alike =>
      obtain ⟨avoids, notApart, avoidsLater⟩ : _ ∧ _ ∧ _ := by
        simpa only [List.forall_mem_append, List.forall_mem_cons] using avoids
      have atStart := grows.find?_of_empty found isEmpty
      obtain ⟨between, given, agreed, makes⟩ :=
        innerIh grows avoids (steady.alike _ _ atStart notApart)
      obtain ⟨grows, meant, agrees, means⟩ :=
        ih (between.remember atStart isEmpty notApart agreed makes) avoidsLater (alike _ _ agreed)
      exact ⟨grows, meant, agrees, .made atStart isEmpty notApart makes means⟩

theorem Follows.need_made {between : Registry} {interface : Interface} {registration : Registration}
    {made : Component} {inner : List Call} (found : registry.find? interface = some registration)
    (isEmpty : registration.cached = none)
    (makes : Follows (interface :: busy) registration.factory.recipe registry made inner between)
    (steady : Steady same apart start) (grows : Grows same apart start registry)
    (avoids : ∀ call ∈ inner ++ ⟨interface, made, true⟩ :: calls, call.interface ∉ apart) :
    Grows same apart start (between.remember interface made) ∧
      (∀ call ∈ calls, call.interface ∉ apart) ∧
      ∃ given, same made given ∧ ∀ (next : Component → Recipe) outcome,
        Means start apart (next given) outcome →
        Means start apart (.need interface next) outcome := by
  obtain ⟨avoids, notApart, avoidsLater⟩ : _ ∧ _ ∧ _ := by
    simpa only [List.forall_mem_append, List.forall_mem_cons] using avoids
  have atStart := grows.find?_of_empty found isEmpty
  obtain ⟨grown, given, agrees, means⟩ :=
    makes.means steady grows avoids (steady.alike interface registration atStart notApart)
  exact ⟨grown.remember atStart isEmpty notApart agrees means, avoidsLater, given, agrees,
    fun _ _ => .made atStart isEmpty notApart means⟩

/-- What a run leaves behind is meant so, even where its own recipe is not steady. -/
theorem Follows.grows {component : Component}
    (follows : Follows busy recipe registry component calls final)
    (steady : Steady same apart start) (grows : Grows same apart start registry)
    (avoids : ∀ call ∈ calls, call.interface ∉ apart) : Grows same apart start final := by
  induction follows with
  | give => exact grows
  | fresh _ ih => exact ih grows.newId avoids
  | cached _ _ _ ih => exact ih grows (List.forall_mem_cons.mp avoids).2
  | made found isEmpty _ makes _ _ ih =>
    obtain ⟨later, avoidsLater, -⟩ := makes.need_made found isEmpty steady grows avoids
    exact ih later avoidsLater

variable {chain : List Interface} {error : RegistryError}

theorem Fails.grows (fails : Fails busy recipe registry error chain calls final)
    (steady : Steady same apart start) (grows : Grows same apart start registry)
    (avoids : ∀ call ∈ calls, call.interface ∉ apart) : Grows same apart start final := by
  obtain ⟨_, follows⟩ := fails.exists_follows
  exact follows.grows steady grows avoids

theorem Fails.means (fails : Fails busy recipe registry error chain calls final)
    (steady : Steady same apart start) (grows : Grows same apart start registry)
    (avoids : ∀ call ∈ calls, call.interface ∉ apart)
    (within : ∀ interface ∈ chain.dropLast, interface ∉ apart)
    (alike : recipe.Alike same meantRecipe) : Means start apart meantRecipe (.error chain) := by
  induction fails generalizing meantRecipe with
  | fail =>
    cases alike
    exact .fail
  | fresh _ ih =>
    cases alike with
    | fresh alike => exact .fresh (ih grows.newId avoids within (alike _ 0))
  | unregistered missing =>
    cases alike
    exact .unregistered (find?_eq_none_of_factories_eq grows.factories.symm missing)
  | cached found isKept _ ih =>
    cases alike with
    | need alike =>
      obtain ⟨given, agreed, goesOn⟩ := grows.need_kept steady found isKept
      exact goesOn _ _ (ih grows (List.forall_mem_cons.mp avoids).2 within (alike _ _ agreed))
  | made found isEmpty _ makes _ ih =>
    cases alike with
    | need alike =>
      obtain ⟨later, avoidsLater, given, agreed, goesOn⟩ :=
        makes.need_made found isEmpty steady grows avoids
      exact goesOn _ _ (ih later avoidsLater within (alike _ _ agreed))
  | @inside _ chain interface _ _ _ _ _ _ found isEmpty _ _ ih =>
    cases alike
    have atStart := grows.find?_of_empty found isEmpty
    cases chain with
    | nil =>
      by_cases isApart : interface ∈ apart
      · exact .apart atStart isEmpty isApart
      · exact .inside atStart isEmpty isApart
          (ih grows avoids within (steady.alike _ _ atStart isApart))
    | cons next rest =>
      -- Only the last of the chain can be set apart.
      obtain ⟨notApart, within⟩ := List.forall_mem_cons.mp within
      exact .inside atStart isEmpty notApart
        (ih grows avoids within (steady.alike _ _ atStart notApart))

end Runs

/-! ## Later resolutions -/

section Later

variable {start registry final : Registry}

theorem alike_need_give (asked : Interface) :
    (Recipe.need asked .give).Alike same (.need asked .give) :=
  .need fun _ _ agrees => .give agrees

/-- A later resolution during which the factories set apart do not run keeps to the meaning of its
interface; where that is to break off, all factories of the chain run. -/
theorem Grows.resolve (grows : Grows same apart start registry) (steady : Steady same apart start)
    (acyclic : Acyclic start) (empty : ∀ interface ∈ apart, start.kept interface = none)
    {asked : Interface}
    (quiet : ∀ interface ∈ apart,
      (registry.resolve asked).runs.countP (·.interface = interface) = 0) :
    Grows same apart start (registry.resolve asked).registry ∧
      ∃ outcome, Means start apart (.need asked .give) outcome ∧
        ∀ chain, outcome = .error chain → ∀ interface ∈ chain,
          0 < (registry.resolve asked).runs.countP (·.interface = interface) := by
  rcases (acyclic.of_factories grows.factories).resolves_or_breaks asked with
    ⟨component, calls, final, resolves⟩ | ⟨error, chain, calls, final, breaks⟩
  · obtain ⟨runs, resolved, counts⟩ := resolves.resolve_eq
    rw [resolved] at quiet ⊢
    have avoids : ∀ call ∈ calls, call.interface ∉ apart := by
      intro call member isApart
      refine Follows.avoids resolves (grows.kept_eq_none isApart (empty _ isApart)) ?_ call member rfl
      rw [← counts, quiet _ isApart]
    obtain ⟨grows, meant, -, means⟩ := Follows.means resolves steady grows avoids (alike_need_give asked)
    exact ⟨grows, .ok meant, means, nofun⟩
  · obtain ⟨runs, resolved, counts⟩ := breaks.resolve_eq
    rw [resolved] at quiet ⊢
    obtain ⟨_, follows⟩ := Fails.exists_follows breaks
    have avoids : ∀ call ∈ calls, call.interface ∉ apart := by
      intro call member isApart
      have none_ran := quiet _ isApart
      rw [counts, Nat.add_eq_zero_iff] at none_ran
      exact follows.avoids (grows.kept_eq_none isApart (empty _ isApart)) none_ran.1 call member rfl
    have ran : ∀ interface ∈ chain, 0 < runs.countP (·.interface = interface) := by
      intro interface member
      rw [counts]
      exact Nat.add_pos_right _ (List.count_pos_iff.mpr member)
    have within : ∀ interface ∈ chain.dropLast, interface ∉ apart := by
      intro interface member isApart
      have once := ran interface (List.dropLast_subset _ member)
      rw [quiet interface isApart] at once
      exact absurd once (Nat.lt_irrefl 0)
    have means := Fails.means breaks steady grows avoids within (alike_need_give asked)
    refine ⟨Fails.grows breaks steady grows avoids, _, means, fun _ broken => ?_⟩
    cases broken
    exact ran

theorem Grows.performAll (grows : Grows same apart start registry) (steady : Steady same apart start)
    (acyclic : Acyclic start) (empty : ∀ interface ∈ apart, start.kept interface = none)
    {asked : List Interface}
    (quiet : ∀ interface ∈ apart,
      (registry.runs (asked.map .resolve)).countP (·.interface = interface) = 0) :
    Grows same apart start (registry.performAll (asked.map .resolve)) := by
  induction asked generalizing registry with
  | nil => exact grows
  | cons first rest ih =>
    simp only [List.map_cons, runs, List.countP_append, Nat.add_eq_zero_iff] at quiet
    have after := (grows.resolve steady acyclic empty fun interface isApart =>
      (quiet interface isApart).1).1
    exact ih after fun interface isApart => (quiet interface isApart).2

end Later

/-! ## The parts of the program -/

theorem Ordered.empty (rank : Interface → Nat) : Ordered rank .empty :=
  nofun

theorem Ordered.register {rank : Interface → Nat} {registry : Registry}
    (ordered : Ordered rank registry) {interface : Interface} {factory : Factory}
    (asks : factory.recipe.AsksFor (rank · < rank interface)) (singleton : Bool) :
    Ordered rank (registry.register interface factory singleton) := by
  intro other registration found
  rw [Registry.register, find?_put] at found
  split at found
  · rename_i here
    cases found
    exact here ▸ asks
  · exact ordered other registration found

theorem Steady.empty (refl : ∀ component, same component component) : Steady same apart .empty :=
  ⟨refl, nofun⟩

theorem Steady.register {registry : Registry} (steady : Steady same apart registry)
    (interface : Interface) {factory : Factory} (alike : factory.recipe.Alike same factory.recipe)
    (singleton : Bool) : Steady same apart (registry.register interface factory singleton) := by
  refine ⟨steady.refl, fun other registration found notApart => ?_⟩
  rw [Registry.register, find?_put] at found
  split at found
  · cases found
    exact alike
  · exact steady.alike other registration found notApart

theorem configure_of_register {motive : Registry → Prop} {settings : Settings}
    (step : ∀ (registry : Registry) (part : Part), motive registry →
      motive (registry.register part.interface ⟨none, part.recipe settings⟩ true))
    {registry : Registry} (start : motive registry) : motive (registry.configure settings) :=
  step _ .documentLoader <| step _ .extractor <| step _ .repository <| step _ .scoring <|
    step _ .fileSystem start

/-- How high the parts stand behind their interfaces. -/
def height : Interface → Nat
  | .repository => 1
  | .extractor => 2
  | _ => 0

theorem asksFor_recipe (settings : Settings) (part : Part) :
    (part.recipe settings).AsksFor (height · < height part.interface) := by
  cases part with
  | fileSystem => exact fun _ => trivial
  | scoring => exact fun _ => trivial
  | documentLoader => exact fun _ => trivial
  | extractor => exact ⟨by decide, fun _ _ => trivial⟩
  | repository =>
    refine ⟨by decide, fun _ => ⟨by decide, fun scoring _ => ?_⟩⟩
    split
    · trivial
    · exact fun _ => trivial

theorem Ordered.configure {registry : Registry} (ordered : Ordered height registry)
    (settings : Settings) : Ordered height (registry.configure settings) :=
  configure_of_register (fun _ part ordered => ordered.register (asksFor_recipe settings part) true)
    ordered

/-- Components that the parts of the program do not tell apart. -/
def EquallyTruthy (component other : Component) : Prop :=
  component.isTruthy = other.isTruthy

theorem alike_recipe (settings : Settings) (part : Part) :
    (part.recipe settings).Alike EquallyTruthy (part.recipe settings) := by
  cases part with
  | fileSystem => exact .fresh fun _ _ => .give rfl
  | scoring => exact .fresh fun _ _ => .give rfl
  | documentLoader => exact .fresh fun _ _ => .give rfl
  | extractor => exact .need fun _ _ _ => .fresh fun _ _ => .give rfl
  | repository =>
    refine .need fun _ _ _ => .need fun scoring given agrees => .fresh fun _ _ => ?_
    rw [show scoring.isTruthy = given.isTruthy from agrees]
    split
    · exact .give rfl
    · exact .fresh fun _ _ => .give rfl

theorem Steady.configure {registry : Registry} (steady : Steady EquallyTruthy apart registry)
    (settings : Settings) : Steady EquallyTruthy apart (registry.configure settings) :=
  configure_of_register
    (fun _ part steady => steady.register part.interface (alike_recipe settings part) true) steady

/-! ## What a failing factory leaves behind -/

/-- What is true of a resolution that broke off, with the chain of interfaces whose factories were at
work, the calls that had come back, and the registry afterwards. -/
structure LeavesTheRest (registry : Registry) (interface : Interface) (error : RegistryError)
    (chain : List Interface) (calls : List Call) (final : Registry) : Prop where
  outcome : (registry.resolve interface).outcome = .error error
  after : (registry.resolve interface).registry = final
  ran : ∀ other, (registry.resolve interface).runs.countP (·.interface = other) =
    calls.countP (Call.isRunOf other) + chain.count other
  begins : chain.head? = some interface
  /-- The error comes out as the last factory of the chain raised it. -/
  raised : ∃ culprit ∈ chain.getLast?, ∃ registration, registry.find? culprit = some registration ∧
    Raises registry.interfaces registration.factory.recipe error
  factories : final.factories = registry.factories
  unfinished : ∀ other ∈ chain, registry.kept other = none ∧ final.kept other = none
  kept : ∀ other component, final.kept other = some component ↔
    registry.kept other = some component ∨
      (∃ factory, registry.find? other = some ⟨factory, true, none⟩) ∧ component.isNull = false ∧
        ⟨other, component, true⟩ ∈ calls
  /-- What is kept stays, and its factory runs no more, also when the interface is resolved again. -/
  spared : ∀ other component, final.kept other = some component →
    ∀ operations : List Operation, (∀ operation ∈ operations, ¬ operation.Registers other) →
      (∀ operation ∈ operations, operation ≠ .reset) →
      (final.performAll operations).kept other = some component ∧
        ∀ run ∈ final.runs operations, run.interface ≠ other
  /-- Factories that were at work begin anew. -/
  retried : ∀ other ∈ chain, ∃ label, (final.resolve other).runs.head? = some ⟨other, label⟩
  /-- The factory that failed runs again, whatever else was resolved meanwhile, as long as the others
  go the same way; one that looks at which object it was handed may not ask for it any more. The
  failed factory itself may go another way, if it did not run otherwise. -/
  again : ∀ same apart (asked : List Interface), Steady same apart registry →
    (∀ other ∈ apart, other ∈ chain.getLast? ∧ (∀ call ∈ calls, call.interface ≠ other) ∧
      (final.runs (asked.map .resolve)).countP (·.interface = other) = 0) →
    ∀ culprit ∈ chain.getLast?, 0 <
      ((final.performAll (asked.map .resolve)).resolve interface).runs.countP
        (·.interface = culprit)

section Failing

variable {registry final : Registry} {interface : Interface} {error : RegistryError}
  {chain : List Interface} {calls : List Call}

theorem Breaks.head?_chain (breaks : Breaks registry interface error chain calls final)
    (known : interface ∈ registry.interfaces) : chain.head? = some interface := by
  cases breaks with
  | unregistered missing => exact absurd known (find?_eq_none_iff.mp missing)
  | cached _ _ fails => cases fails
  | made _ _ _ _ fails => cases fails
  | inside => rfl

theorem head?_runs_resolve {registration : Registration}
    (found : registry.find? interface = some registration) (empty : registration.cached = none) :
    (registry.resolve interface).runs.head? = some ⟨interface, registration.factory.label⟩ := by
  simp only [resolve, resolveWithin, found, empty, List.head?_cons]

theorem Breaks.runs_again (breaks : Breaks registry interface error chain calls final)
    (acyclic : Acyclic registry) (steady : Steady same apart registry) {asked : List Interface}
    (only : ∀ other ∈ apart, other ∈ chain.getLast? ∧ (∀ call ∈ calls, call.interface ≠ other) ∧
      (final.runs (asked.map .resolve)).countP (·.interface = other) = 0)
    {culprit : Interface} (last : culprit ∈ chain.getLast?) :
    0 < ((final.performAll (asked.map .resolve)).resolve interface).runs.countP
      (·.interface = culprit) := by
  have avoids : ∀ call ∈ calls, call.interface ∉ apart := fun call member isApart =>
    (only _ isApart).2.1 call member rfl
  have within : ∀ other ∈ chain.dropLast, other ∉ apart := by
    intro other earlier isApart
    have distinct := (Fails.nodup_chain breaks).1
    rw [← List.dropLast_append_getLast? other (only other isApart).1, List.nodup_append] at distinct
    exact distinct.2.2 other earlier other (List.mem_singleton_self other) rfl
  have empty : ∀ other ∈ apart, registry.kept other = none := fun other isApart =>
    (Fails.kept_eq_none breaks (List.mem_of_getLast? (only other isApart).1)).1
  have means := Fails.means breaks steady (.refl registry) avoids within (alike_need_give interface)
  have grows := Fails.grows breaks steady (.refl registry) avoids
  have later := grows.performAll steady acyclic empty fun other isApart => (only other isApart).2.2
  rcases Nat.eq_zero_or_pos
    (((final.performAll (asked.map .resolve)).resolve interface).runs.countP
      (·.interface = culprit)) with quiet | ran
  · -- Then what it means now is what it meant before, and the whole chain runs.
    obtain ⟨-, outcome, means', ran⟩ := later.resolve steady acyclic empty fun other isApart => by
      cases Option.mem_unique last (only other isApart).1
      exact quiet
    exact ran chain (means'.unique means) culprit (List.mem_of_getLast? last)
  · exact ran

theorem Breaks.leaves_the_rest (breaks : Breaks registry interface error chain calls final)
    (acyclic : Acyclic registry) (known : interface ∈ registry.interfaces) :
    LeavesTheRest registry interface error chain calls final := by
  obtain ⟨runs, resolved, counts⟩ := breaks.resolve_eq
  obtain ⟨_, follows⟩ := Fails.exists_follows breaks
  have begins := breaks.head?_chain known
  constructor
  case outcome => rw [resolved]
  case after => rw [resolved]
  case ran => rwa [resolved]
  case begins => exact begins
  case raised =>
    obtain ⟨rest, rfl⟩ := List.head?_eq_some_iff.mp begins
    obtain ⟨_, registration, start, _, found, same, alone⟩ :=
      Fails.of_getLast? breaks List.getLast?_cons
    have raises := alone.raises rfl
    rw [interfaces_of_factories_eq same] at raises
    exact ⟨_, List.getLast?_cons, registration, found, raises⟩
  case factories => exact follows.factories_eq
  case unfinished => exact fun other atWork => Fails.kept_eq_none breaks atWork
  case kept => exact fun other component => follows.kept_iff
  case spared => exact fun other component isKept operations unchanged noReset =>
    performAll_spares unchanged noReset isKept
  case retried =>
    intro other atWork
    obtain ⟨registration, found, empty⟩ := Fails.unfinished breaks other atWork
    exact ⟨_, head?_runs_resolve found empty⟩
  case again =>
    exact fun same apart asked steady only culprit last => breaks.runs_again acyclic steady only last

/-- A resolution in which a factory fails breaks off in a chain of factories at work, and leaves the
rest of the registry consistent. -/
theorem failing_factory_leaves_the_rest (acyclic : registry.Acyclic)
    (known : interface ∈ registry.interfaces)
    (failed : (registry.resolve interface).outcome = .error error) :
    (∃ chain calls final, Breaks registry interface error chain calls final) ∧
      ∀ chain calls final, Breaks registry interface error chain calls final →
        LeavesTheRest registry interface error chain calls final := by
  refine ⟨?_, fun chain calls final breaks => breaks.leaves_the_rest acyclic known⟩
  rcases acyclic.resolves_or_breaks interface with
    ⟨component, calls, final, resolves⟩ | ⟨raised, chain, calls, final, breaks⟩
  · obtain ⟨runs, resolved, -⟩ := resolves.resolve_eq
    rw [resolved] at failed
    cases failed
  · obtain ⟨runs, resolved, -⟩ := breaks.resolve_eq
    rw [resolved] at failed
    cases failed
    exact ⟨chain, calls, final, breaks⟩

/-- A scoring that cannot be made keeps an extractor from being made. The files that were made for it
stay, and the scoring is tried again. -/
theorem failing_factory_leaves_the_rest_of_scoring :
    let scoring : Factory := ⟨some "scoring", .fail "out of order"⟩
    let registry := (Registry.empty.configure .defaults).register .scoring scoring true
    let files : Component := .fileSystem 0 (.disk "utf-8")
    ∃ final, LeavesTheRest registry .extractor (.failed "out of order")
        [.extractor, .repository, .scoring] [⟨.fileSystem, files, true⟩] final ∧
      final.kept .fileSystem = some files ∧
      0 < ((final.performAll [.resolve .repository]).resolve .extractor).runs.countP
        (·.interface = .scoring) := by
  intro scoring registry files
  have ordered : Ordered height registry :=
    ((Ordered.empty height).configure .defaults).register (show scoring.recipe.AsksFor _ from trivial)
      true
  have steady : Steady EquallyTruthy [] registry :=
    (Steady.configure (.empty fun _ => rfl) .defaults).register .scoring .fail true
  obtain ⟨final, breaks⟩ : ∃ final, Breaks registry .extractor (.failed "out of order")
      [.extractor, .repository, .scoring] [⟨.fileSystem, files, true⟩] final := by
    apply Exists.intro
    apply Fails.inside rfl rfl List.not_mem_nil
    apply Fails.inside rfl rfl (by decide)
    change Fails _ _ _ _ _ ([] ++ [_]) _
    exact .made rfl rfl (by decide) (.fresh .give) (.inside rfl rfl (by decide) .fail)
  obtain ⟨runs, resolved, -⟩ := breaks.resolve_eq
  have leaves := (failing_factory_leaves_the_rest ⟨height, ordered⟩ (by decide)
    (by rw [resolved])).2 _ _ _ breaks
  have isKept := (leaves.kept .fileSystem files).mpr
    (.inr ⟨⟨_, rfl⟩, rfl, List.mem_singleton_self _⟩)
  exact ⟨final, leaves, isKept,
    leaves.again EquallyTruthy [] [.repository] steady (List.forall_mem_nil _) .scoring rfl⟩

end Failing

end Registry

end Stencil
