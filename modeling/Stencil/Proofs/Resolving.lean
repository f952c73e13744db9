import Mathlib.Data.List.Nodup
import Mathlib.Data.List.Perm.Subperm
import Stencil.Registry.Basic

/-! Resolving without a bound on how deep factories are nested.

A run of a recipe that comes to an end is a relation: every interface that is asked for is registered,
nobody asks for what is still being made, and nothing fails. So is a run that fails, with the chain of
interfaces whose factories were at work. A cycle has neither. Since all that is being made at one time
is registered and different, the bound under which interfaces are resolved cuts no run short.
Factories that can be ordered, each asking for lower ones only, always have a run of one kind.
-/

set_option autoImplicit false

namespace Stencil

/-- A resolution that came to an end: what was asked for, what was handed out, and whether a factory
ran for it. -/
structure Call where
  interface : Interface
  component : Component
  ran : Bool

/-- The calls of one interface for which a factory ran. -/
def Call.isRunOf (interface : Interface) (call : Call) : Bool :=
  call.interface = interface && call.ran

namespace Registry

/-- A recipe is followed to its end, with the interfaces that are being made at that time: it hands
out a component, after the calls in the order in which they came back. -/
inductive Follows : List Interface → Recipe → Registry → Component → List Call → Registry → Prop where
  | give {busy : List Interface} {component : Component} {registry : Registry} :
      Follows busy (.give component) registry component [] registry
  | fresh {busy : List Interface} {next : Nat → Recipe} {registry final : Registry}
      {component : Component} {calls : List Call} :
      Follows busy (next registry.nextId) registry.newId.2 component calls final →
      Follows busy (.fresh next) registry component calls final
  | cached {busy : List Interface} {interface : Interface} {next : Component → Recipe}
      {registry final : Registry} {registration : Registration} {kept component : Component}
      {calls : List Call} :
      registry.find? interface = some registration → registration.cached = some kept →
      Follows busy (next kept) registry component calls final →
      Follows busy (.need interface next) registry component (⟨interface, kept, false⟩ :: calls) final
  | made {busy : List Interface} {interface : Interface} {next : Component → Recipe}
      {registry between final : Registry} {registration : Registration}
      {made component : Component} {inner calls : List Call} :
      registry.find? interface = some registration → registration.cached = none →
      interface ∉ busy →
      Follows (interface :: busy) registration.factory.recipe registry made inner between →
      Follows busy (next made) (between.remember interface made) component calls final →
      Follows busy (.need interface next) registry component
        (inner ++ ⟨interface, made, true⟩ :: calls) final

/-- A recipe fails: the error, the interfaces whose factories were at work inside it at that moment,
the outermost first, and the calls that had come back before. -/
inductive Fails : List Interface → Recipe → Registry → RegistryError → List Interface → List Call →
    Registry → Prop where
  | fail {busy : List Interface} {label : String} {registry : Registry} :
      Fails busy (.fail label) registry (.failed label) [] [] registry
  | fresh {busy chain : List Interface} {next : Nat → Recipe} {registry final : Registry}
      {error : RegistryError} {calls : List Call} :
      Fails busy (next registry.nextId) registry.newId.2 error chain calls final →
      Fails busy (.fresh next) registry error chain calls final
  | unregistered {busy : List Interface} {interface : Interface} {next : Component → Recipe}
      {registry : Registry} :
      registry.find? interface = none →
      Fails busy (.need interface next) registry (.unregistered interface) [] [] registry
  | cached {busy chain : List Interface} {interface : Interface} {next : Component → Recipe}
      {registry final : Registry} {registration : Registration} {kept : Component}
      {error : RegistryError} {calls : List Call} :
      registry.find? interface = some registration → registration.cached = some kept →
      Fails busy (next kept) registry error chain calls final →
      Fails busy (.need interface next) registry error chain (⟨interface, kept, false⟩ :: calls) final
  | made {busy chain : List Interface} {interface : Interface} {next : Component → Recipe}
      {registry between final : Registry} {registration : Registration} {made : Component}
      {error : RegistryError} {inner calls : List Call} :
      registry.find? interface = some registration → registration.cached = none →
      interface ∉ busy →
      Follows (interface :: busy) registration.factory.recipe registry made inner between →
      Fails busy (next made) (between.remember interface made) error chain calls final →
      Fails busy (.need interface next) registry error chain
        (inner ++ ⟨interface, made, true⟩ :: calls) final
  | inside {busy chain : List Interface} {interface : Interface} {next : Component → Recipe}
      {registry final : Registry} {registration : Registration} {error : RegistryError}
      {calls : List Call} :
      registry.find? interface = some registration → registration.cached = none →
      interface ∉ busy →
      Fails (interface :: busy) registration.factory.recipe registry error chain calls final →
      Fails busy (.need interface next) registry error (interface :: chain) calls final

/-- An interface is resolved, with the calls on the way; the last of them is its own. -/
def Resolves (registry : Registry) (interface : Interface) (component : Component)
    (calls : List Call) (final : Registry) : Prop :=
  Follows [] (.need interface .give) registry component calls final

/-- The resolution of an interface breaks off; unless the interface is unknown, the chain begins with
it. -/
def Breaks (registry : Registry) (interface : Interface) (error : RegistryError)
    (chain : List Interface) (calls : List Call) (final : Registry) : Prop :=
  Fails [] (.need interface .give) registry error chain calls final

/-! ## What stays registered -/

theorem isSome_find?_iff {registry : Registry} {interface : Interface} :
    (registry.find? interface).isSome ↔ interface ∈ registry.interfaces := by
  rw [find?, Option.isSome_map, List.find?_isSome, interfaces, List.mem_map]
  simp only [decide_eq_true_eq]

theorem find?_eq_none_iff {registry : Registry} {interface : Interface} :
    registry.find? interface = none ↔ interface ∉ registry.interfaces := by
  rw [← isSome_find?_iff, Option.not_isSome_iff_eq_none]

/-- All registrations in their order, apart from what is kept. -/
def factories (registry : Registry) : List (Interface × Factory × Bool) :=
  registry.registrations.map fun (interface, registration) =>
    (interface, registration.factory, registration.singleton)

theorem map_fst_factories (registry : Registry) :
    registry.factories.map Prod.fst = registry.interfaces := by
  simp [factories, interfaces]

theorem find?_factories (registry : Registry) (interface : Interface) :
    (registry.factories.find? fun (known, _) => known = interface).map Prod.snd =
      (registry.find? interface).map fun registration =>
        (registration.factory, registration.singleton) := by
  simp only [factories, find?, List.find?_map, Option.map_map]
  rfl

section SameFactories

variable {registry final : Registry} (same : final.factories = registry.factories)
include same

theorem interfaces_of_factories_eq : final.interfaces = registry.interfaces := by
  rw [← map_fst_factories, same, map_fst_factories]

theorem find?_of_factories_eq {interface : Interface} {registration : Registration}
    (found : registry.find? interface = some registration) :
    ∃ cached, final.find? interface = some { registration with cached } := by
  have there := find?_factories final interface
  rw [same, find?_factories, found] at there
  obtain ⟨⟨factory, singleton, cached⟩, found', agree⟩ := Option.map_eq_some_iff.mp there.symm
  cases agree
  exact ⟨cached, found'⟩

theorem find?_eq_none_of_factories_eq {interface : Interface}
    (missing : registry.find? interface = none) : final.find? interface = none := by
  rw [find?_eq_none_iff, interfaces_of_factories_eq same]
  exact find?_eq_none_iff.mp missing

end SameFactories

theorem factories_put {registry : Registry} {interface : Interface} {registration : Registration}
    (found : registry.find? interface = some registration) (cached : Option Component) :
    (registry.put interface { registration with cached }).factories = registry.factories := by
  obtain ⟨entries, nextId⟩ := registry
  unfold factories put find? at *
  induction entries with
  | nil => simp at found
  | cons entry rest ih =>
    obtain ⟨first, old⟩ := entry
    by_cases here : first = interface
    · obtain rfl : old = registration := by simpa [here] using found
      simp [putIn, here]
    · simpa [putIn, here] using ih (by simpa [here] using found)

theorem factories_remember (registry : Registry) (interface : Interface) (component : Component) :
    (registry.remember interface component).factories = registry.factories := by
  unfold remember
  cases found : registry.find? interface with
  | none => rfl
  | some registration =>
    dsimp only
    split
    · exact factories_put found _
    · rfl

theorem interfaces_remember (registry : Registry) (interface : Interface) (component : Component) :
    (registry.remember interface component).interfaces = registry.interfaces :=
  interfaces_of_factories_eq (factories_remember registry interface component)

theorem find?_remember (registry : Registry) (interface other : Interface) (component : Component) :
    (registry.remember interface component).find? other =
      if interface = other then
        (registry.find? other).map fun registration =>
          { registration with
            cached := if registration.singleton then keep component else registration.cached }
      else registry.find? other := by
  unfold remember
  by_cases same : interface = other
  · subst same
    cases found : registry.find? interface with
    | none => simp [found]
    | some registration =>
      obtain ⟨factory, singleton, cached⟩ := registration
      cases singleton <;> simp [found, find?_put]
  · cases found : registry.find? interface with
    | none => simp [same]
    | some registration =>
      by_cases once : registration.singleton = true <;> simp [once, find?_put, same]

namespace Follows

variable {busy : List Interface} {recipe : Recipe} {registry final : Registry}
  {component : Component} {calls : List Call}

theorem factories_eq (follows : Follows busy recipe registry component calls final) :
    final.factories = registry.factories := by
  induction follows with
  | give => rfl
  | fresh _ ih => exact ih
  | cached _ _ _ ih => exact ih
  | made _ _ _ _ _ inner ih => rw [ih, factories_remember, inner]

theorem interfaces_eq (follows : Follows busy recipe registry component calls final) :
    final.interfaces = registry.interfaces :=
  interfaces_of_factories_eq follows.factories_eq

end Follows

/-! ## Runs and the bound -/

theorem follow_need_give (resolve : Registry → Interface → Resolution) (registry : Registry)
    (interface : Interface) :
    follow resolve (.need interface .give) registry = resolve registry interface := by
  cases resolved : resolve registry interface with
  | mk outcome final runs => cases outcome <;> simp [follow, resolved]

theorem resolveWithin_of_cached {registry : Registry} {interface : Interface}
    {registration : Registration} {kept : Component} (depth : Nat)
    (found : registry.find? interface = some registration)
    (cached : registration.cached = some kept) :
    resolveWithin (depth + 1) registry interface = ⟨.ok kept, registry, []⟩ := by
  simp only [resolveWithin, found, cached]

theorem resolveWithin_of_made {registry between : Registry} {interface : Interface}
    {registration : Registration} {made : Component} {runs : List Run} {depth : Nat}
    (found : registry.find? interface = some registration) (empty : registration.cached = none)
    (follows : follow (resolveWithin depth) registration.factory.recipe registry =
      ⟨.ok made, between, runs⟩) :
    resolveWithin (depth + 1) registry interface =
      ⟨.ok made, between.remember interface made,
        ⟨interface, registration.factory.label⟩ :: runs⟩ := by
  simp only [resolveWithin, found, empty, follows]

theorem follow_need_of_ok {resolve : Registry → Interface → Resolution} {registry between : Registry}
    {interface : Interface} {made : Component} {runs : List Run} (next : Component → Recipe)
    (resolved : resolve registry interface = ⟨.ok made, between, runs⟩) :
    follow resolve (.need interface next) registry =
      { follow resolve (next made) between with
        runs := runs ++ (follow resolve (next made) between).runs } := by
  simp only [follow, resolved]

theorem follow_need_of_cached {registry : Registry} {interface : Interface}
    {registration : Registration} {kept : Component} (depth : Nat) (next : Component → Recipe)
    (found : registry.find? interface = some registration)
    (cached : registration.cached = some kept) :
    follow (resolveWithin (depth + 1)) (.need interface next) registry =
      follow (resolveWithin (depth + 1)) (next kept) registry := by
  rw [follow_need_of_ok next (resolveWithin_of_cached depth found cached)]
  rfl

theorem follow_need_of_failed {resolve : Registry → Interface → Resolution}
    {registry between : Registry} {interface : Interface} {error : RegistryError} {runs : List Run}
    (next : Component → Recipe) (resolved : resolve registry interface = ⟨.error error, between, runs⟩) :
    follow resolve (.need interface next) registry = ⟨.error error, between, runs⟩ := by
  simp only [follow, resolved]

theorem resolveWithin_of_failed {registry between : Registry} {interface : Interface}
    {registration : Registration} {error : RegistryError} {runs : List Run} {depth : Nat}
    (found : registry.find? interface = some registration) (empty : registration.cached = none)
    (failed : follow (resolveWithin depth) registration.factory.recipe registry =
      ⟨.error error, between, runs⟩) :
    resolveWithin (depth + 1) registry interface =
      ⟨.error error, between, ⟨interface, registration.factory.label⟩ :: runs⟩ := by
  simp only [resolveWithin, found, empty, failed]

/-- What is being made is registered and different, so that there are never more factories at work
than registrations. -/
theorem exists_level {registry : Registry} {busy : List Interface} (distinct : busy.Nodup)
    (known : busy ⊆ registry.interfaces) {depth : Nat}
    (deep : registry.interfaces.length < depth + busy.length) : ∃ less, depth = less + 1 := by
  have room := (List.subperm_of_subset distinct known).length_le
  exact ⟨depth - 1, by omega⟩

theorem Follows.follow_eq {busy : List Interface} {recipe : Recipe} {registry final : Registry}
    {component : Component} {calls : List Call}
    (follows : Follows busy recipe registry component calls final) (distinct : busy.Nodup)
    (known : busy ⊆ registry.interfaces) {depth : Nat}
    (deep : registry.interfaces.length < depth + busy.length) :
    ∃ runs, follow (resolveWithin depth) recipe registry = ⟨.ok component, final, runs⟩ ∧
      ∀ interface, runs.countP (·.interface = interface) =
        calls.countP (Call.isRunOf interface) := by
  induction follows generalizing depth with
  | give => exact ⟨[], rfl, fun _ => rfl⟩
  | fresh _ ih => exact ih distinct known deep
  | cached found kept _ ih =>
    obtain ⟨runs, followed, counts⟩ := ih distinct known deep
    obtain ⟨depth, rfl⟩ := exists_level distinct known deep
    refine ⟨runs, ?_, fun interface => ?_⟩
    · rw [follow_need_of_cached depth _ found kept, followed]
    · rw [counts, List.countP_cons_of_neg (by simp [Call.isRunOf])]
  | @made busy interface _ registry between _ registration made _ _ _ found empty notBusy inner _ innerIh ih =>
    have isKnown := isSome_find?_iff.mp (Option.isSome_of_mem found)
    have same := (interfaces_remember between interface made).trans inner.interfaces_eq
    obtain ⟨runs, followed, counts⟩ := ih distinct (by rwa [same]) (by rwa [same])
    -- One more interface is being made inside, for which one level of the bound is used up.
    obtain ⟨depth, rfl⟩ := exists_level distinct known deep
    obtain ⟨innerRuns, innerFollowed, innerCounts⟩ := innerIh
      (List.nodup_cons.mpr ⟨notBusy, distinct⟩) (List.cons_subset.mpr ⟨isKnown, known⟩)
      (by rwa [List.length_cons, ← Nat.add_assoc, Nat.add_right_comm])
    refine ⟨⟨interface, registration.factory.label⟩ :: innerRuns ++ runs, ?_, fun other => ?_⟩
    · rw [follow_need_of_ok _ (resolveWithin_of_made found empty innerFollowed), followed]
    · simp only [List.cons_append, List.countP_append, List.countP_cons, counts, innerCounts,
        Call.isRunOf, Bool.and_true]
      omega

theorem Fails.follow_eq {busy chain : List Interface} {recipe : Recipe} {registry final : Registry}
    {error : RegistryError} {calls : List Call}
    (fails : Fails busy recipe registry error chain calls final) (distinct : busy.Nodup)
    (known : busy ⊆ registry.interfaces) {depth : Nat}
    (deep : registry.interfaces.length < depth + busy.length) :
    ∃ runs, follow (resolveWithin depth) recipe registry = ⟨.error error, final, runs⟩ ∧
      ∀ interface, runs.countP (·.interface = interface) =
        calls.countP (Call.isRunOf interface) + chain.count interface := by
  induction fails generalizing depth with
  | fail => exact ⟨[], rfl, fun _ => rfl⟩
  | fresh _ ih => exact ih distinct known deep
  | @unregistered _ interface _ registry missing =>
    obtain ⟨depth, rfl⟩ := exists_level distinct known deep
    have resolved : resolveWithin (depth + 1) registry interface =
        ⟨.error (.unregistered interface), registry, []⟩ := by
      simp only [resolveWithin, missing]
    exact ⟨[], follow_need_of_failed _ resolved, fun _ => rfl⟩
  | cached found kept _ ih =>
    obtain ⟨runs, followed, counts⟩ := ih distinct known deep
    obtain ⟨depth, rfl⟩ := exists_level distinct known deep
    refine ⟨runs, ?_, fun interface => ?_⟩
    · rw [follow_need_of_cached depth _ found kept, followed]
    · rw [counts, List.countP_cons_of_neg (by simp [Call.isRunOf])]
  | @made busy _ interface _ registry between _ registration made _ _ _ found empty notBusy makes _ ih =>
    have isKnown := isSome_find?_iff.mp (Option.isSome_of_mem found)
    have same := (interfaces_remember between interface made).trans makes.interfaces_eq
    obtain ⟨runs, followed, counts⟩ := ih distinct (by rwa [same]) (by rwa [same])
    obtain ⟨depth, rfl⟩ := exists_level distinct known deep
    obtain ⟨innerRuns, innerFollowed, innerCounts⟩ := makes.follow_eq
      (List.nodup_cons.mpr ⟨notBusy, distinct⟩) (List.cons_subset.mpr ⟨isKnown, known⟩)
      (by rwa [List.length_cons, ← Nat.add_assoc, Nat.add_right_comm])
    refine ⟨⟨interface, registration.factory.label⟩ :: innerRuns ++ runs, ?_, fun other => ?_⟩
    · rw [follow_need_of_ok _ (resolveWithin_of_made found empty innerFollowed), followed]
    · simp only [List.cons_append, List.countP_append, List.countP_cons, counts, innerCounts,
        Call.isRunOf, Bool.and_true]
      omega
  | @inside busy chain interface _ registry _ registration _ _ found empty notBusy _ ih =>
    have isKnown := isSome_find?_iff.mp (Option.isSome_of_mem found)
    obtain ⟨depth, rfl⟩ := exists_level distinct known deep
    obtain ⟨runs, failed, counts⟩ := ih (List.nodup_cons.mpr ⟨notBusy, distinct⟩)
      (List.cons_subset.mpr ⟨isKnown, known⟩)
      (by rwa [List.length_cons, ← Nat.add_assoc, Nat.add_right_comm])
    refine ⟨⟨interface, registration.factory.label⟩ :: runs, ?_, fun other => ?_⟩
    · exact follow_need_of_failed _ (resolveWithin_of_failed found empty failed)
    · simp only [List.countP_cons, List.count_cons, counts, decide_eq_true_eq, beq_iff_eq]
      omega

theorem depth_suffices (registry : Registry) : registry.interfaces.length <
    registry.registrations.length + 1 + ([] : List Interface).length := by
  rw [interfaces, List.length_map]
  exact Nat.lt_succ_self _

/-- A resolution that comes to an end is the one that the registry carries out, and the factories
that ran are those of its calls. -/
theorem Resolves.resolve_eq {registry final : Registry} {interface : Interface}
    {component : Component} {calls : List Call}
    (resolves : Resolves registry interface component calls final) :
    ∃ runs, registry.resolve interface = ⟨.ok component, final, runs⟩ ∧
      ∀ other, runs.countP (·.interface = other) = calls.countP (Call.isRunOf other) := by
  obtain ⟨runs, followed, counts⟩ := Follows.follow_eq resolves List.nodup_nil
    (List.nil_subset _) registry.depth_suffices
  rw [follow_need_give] at followed
  exact ⟨runs, followed, counts⟩

theorem Breaks.resolve_eq {registry final : Registry} {interface : Interface} {error : RegistryError}
    {chain : List Interface} {calls : List Call}
    (breaks : Breaks registry interface error chain calls final) :
    ∃ runs, registry.resolve interface = ⟨.error error, final, runs⟩ ∧
      ∀ other, runs.countP (·.interface = other) =
        calls.countP (Call.isRunOf other) + chain.count other := by
  obtain ⟨runs, failed, counts⟩ := Fails.follow_eq breaks List.nodup_nil (List.nil_subset _)
    registry.depth_suffices
  rw [follow_need_give] at failed
  exact ⟨runs, failed, counts⟩

end Registry

/-! ## Factories in an order -/

/-- A recipe that asks for certain interfaces only, whatever it is handed. -/
def Recipe.AsksFor (allowed : Interface → Prop) : Recipe → Prop
  | give _ => True
  | fail _ => True
  | fresh next => ∀ id, (next id).AsksFor allowed
  | need interface next => allowed interface ∧ ∀ component, (next component).AsksFor allowed

/-- A recipe that never fails and asks for certain interfaces only, whatever it is handed. -/
def Recipe.AsksOnly (allowed : Interface → Prop) : Recipe → Prop
  | give _ => True
  | fail _ => False
  | fresh next => ∀ id, (next id).AsksOnly allowed
  | need interface next => allowed interface ∧ ∀ component, (next component).AsksOnly allowed

theorem Recipe.AsksOnly.asksFor {allowed : Interface → Prop} {recipe : Recipe}
    (asks : recipe.AsksOnly allowed) {wider : Interface → Prop}
    (widens : ∀ interface, allowed interface → wider interface) : recipe.AsksFor wider := by
  induction recipe with
  | give => trivial
  | fail => trivial
  | fresh _ ih => exact fun id => ih id (asks id)
  | need interface _ ih => exact ⟨widens interface asks.1, fun component => ih component (asks.2 component)⟩

namespace Registry

/-- Each factory asks for interfaces of lower rank only. -/
def Ordered (rank : Interface → Nat) (registry : Registry) : Prop :=
  ∀ interface registration, registry.find? interface = some registration →
    registration.factory.recipe.AsksFor fun needed => rank needed < rank interface

/-- Each factory asks for registered interfaces of lower rank only, and does not fail. -/
def Ranked (rank : Interface → Nat) (registry : Registry) : Prop :=
  ∀ interface registration, registry.find? interface = some registration →
    registration.factory.recipe.AsksOnly fun needed =>
      needed ∈ registry.interfaces ∧ rank needed < rank interface

variable {rank : Interface → Nat} {registry final : Registry}

theorem Ordered.of_factories (ordered : Ordered rank registry)
    (same : final.factories = registry.factories) : Ordered rank final := by
  intro interface registration found
  obtain ⟨cached, before⟩ := find?_of_factories_eq same.symm found
  have asks := ordered interface _ before
  exact asks

theorem Ranked.of_factories (ranked : Ranked rank registry)
    (same : final.factories = registry.factories) : Ranked rank final := by
  intro interface registration found
  obtain ⟨cached, before⟩ := find?_of_factories_eq same.symm found
  rw [interfaces_of_factories_eq same]
  have asks := ranked interface _ before
  exact asks

theorem Ranked.ordered (ranked : Ranked rank registry) : Ordered rank registry :=
  fun interface registration found =>
    (ranked interface registration found).asksFor fun _ allowed => allowed.2

/-- Under an order every recipe comes to an end or fails. -/
theorem follows_or_fails {bound : Nat} {busy : List Interface} {recipe : Recipe}
    (ordered : Ordered rank registry) (above : ∀ interface ∈ busy, bound ≤ rank interface)
    (asks : recipe.AsksFor (rank · < bound)) :
    (∃ component calls final, Follows busy recipe registry component calls final) ∨
      ∃ error chain calls final, Fails busy recipe registry error chain calls final := by
  -- The induction is on the rank, and for one rank on the recipe: what is being made has at least that
  -- rank, so that nobody asks for it.
  induction bound using Nat.strongRecOn generalizing busy recipe registry with
  | ind bound lower =>
    induction recipe generalizing registry with
    | give component => exact .inl ⟨component, [], registry, .give⟩
    | fail label => exact .inr ⟨.failed label, [], [], registry, .fail⟩
    | fresh next ih =>
      rcases @ih registry.nextId registry.newId.2 ordered (asks registry.nextId) with
        ⟨component, calls, final, follows⟩ | ⟨error, chain, calls, final, fails⟩
      · exact .inl ⟨component, calls, final, .fresh follows⟩
      · exact .inr ⟨error, chain, calls, final, .fresh fails⟩
    | need interface next ih =>
      obtain ⟨below, continues⟩ := asks
      cases found : registry.find? interface with
      | none => exact .inr ⟨.unregistered interface, [], [], registry, .unregistered found⟩
      | some registration =>
      -- What is kept is handed out; otherwise its factory has a lower rank and comes to an end.
      cases empty : registration.cached with
      | some kept =>
        rcases ih kept ordered (continues kept) with
          ⟨component, calls, final, follows⟩ | ⟨error, chain, calls, final, fails⟩
        · exact .inl ⟨component, _, final, .cached found empty follows⟩
        · exact .inr ⟨error, chain, _, final, .cached found empty fails⟩
      | none =>
        have notBusy : interface ∉ busy := fun isBusy => by
          have high := above interface isBusy
          omega
        have above' : ∀ other ∈ interface :: busy, rank interface ≤ rank other := by
          intro other member
          rcases List.mem_cons.mp member with rfl | member
          · exact Nat.le_refl _
          · have high := above other member
            omega
        rcases lower (rank interface) below ordered above' (ordered interface registration found) with
          ⟨made, inner, between, makes⟩ | ⟨error, chain, calls, final, fails⟩
        · have same := (factories_remember between interface made).trans makes.factories_eq
          rcases ih made (ordered.of_factories same) (continues made) with
            ⟨component, calls, final, follows⟩ | ⟨error, chain, calls, final, fails⟩
          · exact .inl ⟨component, _, final, .made found empty notBusy makes follows⟩
          · exact .inr ⟨error, chain, _, final, .made found empty notBusy makes fails⟩
        · exact .inr ⟨error, _, calls, final, .inside found empty notBusy fails⟩

/-- Factories depend on each other without a cycle. -/
def Acyclic (registry : Registry) : Prop :=
  ∃ rank, Ordered rank registry

theorem Acyclic.of_factories (acyclic : Acyclic registry)
    (same : final.factories = registry.factories) : Acyclic final := by
  obtain ⟨rank, ordered⟩ := acyclic
  exact ⟨rank, ordered.of_factories same⟩

theorem Ordered.resolves_or_breaks (ordered : Ordered rank registry) (interface : Interface) :
    (∃ component calls final, Resolves registry interface component calls final) ∨
      ∃ error chain calls final, Breaks registry interface error chain calls final :=
  @follows_or_fails rank registry (rank interface + 1) [] _ ordered (List.forall_mem_nil _)
    ⟨Nat.lt_succ_self _, fun _ => trivial⟩

theorem Acyclic.resolves_or_breaks (acyclic : Acyclic registry) (interface : Interface) :
    (∃ component calls final, Resolves registry interface component calls final) ∨
      ∃ error chain calls final, Breaks registry interface error chain calls final := by
  obtain ⟨rank, ordered⟩ := acyclic
  exact ordered.resolves_or_breaks interface

theorem Fails.not_ranked {busy chain : List Interface} {recipe : Recipe} {error : RegistryError}
    {calls : List Call} (fails : Fails busy recipe registry error chain calls final)
    (ranked : Ranked rank registry) {bound : Nat} :
    ¬ recipe.AsksOnly fun needed => needed ∈ registry.interfaces ∧ rank needed < bound := by
  induction fails generalizing bound with
  | fail => exact id
  | fresh _ ih => exact fun asks => ih ranked (asks _)
  | unregistered missing => exact fun asks => find?_eq_none_iff.mp missing asks.1.1
  | cached _ _ _ ih => exact fun asks => ih ranked (asks.2 _)
  | @made _ _ interface _ _ between _ _ made _ _ _ _ _ _ makes _ ih =>
    intro asks
    have same := (factories_remember between interface made).trans makes.factories_eq
    rw [← interfaces_of_factories_eq same] at asks
    exact ih (ranked.of_factories same) (asks.2 made)
  | inside found _ _ _ ih => exact fun _ => ih ranked (ranked _ _ found)

theorem Ranked.exists_resolves (ranked : Ranked rank registry) {interface : Interface}
    (known : interface ∈ registry.interfaces) :
    ∃ component calls final, Resolves registry interface component calls final := by
  rcases ranked.ordered.resolves_or_breaks interface with resolves | ⟨_, _, _, _, breaks⟩
  · exact resolves
  · refine absurd ?_ (@Fails.not_ranked rank _ _ _ _ _ _ _ breaks ranked (rank interface + 1))
    exact ⟨⟨known, Nat.lt_succ_self _⟩, fun _ => trivial⟩

end Registry

end Stencil
