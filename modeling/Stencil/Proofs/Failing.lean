import Stencil.Proofs.Assembling

/-! Resolutions that fail.

A run that fails leaves the registry as a run that asks for the same and then stops would leave it:
what was served stays served. The interfaces whose factories were still at work were not kept before
and are not kept afterwards. Whatever is kept stays so, and its factory runs no more, until it is
registered again or the registry is reset.
-/

set_option autoImplicit false

namespace Stencil

namespace Registry

/-! ## What came back before a failure -/

theorem Follows.of_subset {busy fewer : List Interface} {recipe : Recipe} {registry final : Registry}
    {component : Component} {calls : List Call}
    (follows : Follows busy recipe registry component calls final) (subset : fewer ⊆ busy) :
    Follows fewer recipe registry component calls final := by
  induction follows generalizing fewer with
  | give => exact .give
  | fresh _ ih => exact .fresh (ih subset)
  | cached found kept _ ih => exact .cached found kept (ih subset)
  | made found empty notBusy _ _ innerIh ih =>
    exact .made found empty (fun isBusy => notBusy (subset isBusy))
      (innerIh (List.cons_subset_cons _ subset)) (ih subset)

namespace Fails

variable {busy chain : List Interface} {recipe : Recipe} {registry final : Registry}
  {error : RegistryError} {calls : List Call}

theorem exists_follows (fails : Fails busy recipe registry error chain calls final) :
    ∃ stopped, Follows busy stopped registry .null calls final := by
  induction fails with
  | fail => exact ⟨.give .null, .give⟩
  | unregistered => exact ⟨.give .null, .give⟩
  | fresh _ ih =>
    obtain ⟨stopped, follows⟩ := ih
    exact ⟨.fresh fun _ => stopped, .fresh follows⟩
  | @cached _ _ interface _ _ _ _ _ _ _ found kept _ ih =>
    obtain ⟨stopped, follows⟩ := ih
    exact ⟨.need interface fun _ => stopped, .cached found kept follows⟩
  | @made _ _ interface _ _ _ _ _ _ _ _ _ found empty notBusy makes _ ih =>
    obtain ⟨stopped, follows⟩ := ih
    exact ⟨.need interface fun _ => stopped, .made found empty notBusy makes follows⟩
  | inside _ _ _ _ ih =>
    obtain ⟨stopped, follows⟩ := ih
    exact ⟨stopped, follows.of_subset (List.subset_cons_self ..)⟩

/-! ## The chain of factories at work -/

theorem of_cons {asked : Interface}
    (fails : Fails busy recipe registry error (asked :: chain) calls final) :
    ∃ start registration inner, start.factories = registry.factories ∧
      start.find? asked = some registration ∧ registration.cached = none ∧ asked ∉ busy ∧
      Fails (asked :: busy) registration.factory.recipe start error chain inner final := by
  generalize isChain : asked :: chain = whole at fails
  induction fails with
  | fail => cases isChain
  | unregistered => cases isChain
  | fresh _ ih => exact ih isChain
  | cached _ _ _ ih => exact ih isChain
  | @made _ _ other _ _ between _ _ made _ _ _ _ _ _ makes _ ih =>
    obtain ⟨start, registration, inner, same, inside⟩ := ih isChain
    have earlier := (factories_remember between other made).trans makes.factories_eq
    exact ⟨start, registration, inner, same.trans earlier, inside⟩
  | @inside _ _ _ _ registry _ registration _ calls found empty notBusy fails =>
    cases isChain
    exact ⟨registry, registration, calls, rfl, found, empty, notBusy, fails⟩

theorem nodup_chain (fails : Fails busy recipe registry error chain calls final) :
    chain.Nodup ∧ ∀ interface ∈ chain, interface ∉ busy := by
  induction chain generalizing busy recipe registry calls with
  | nil => exact ⟨List.nodup_nil, List.forall_mem_nil _⟩
  | cons asked rest ih =>
    obtain ⟨_, _, _, -, -, -, notBusy, inside⟩ := fails.of_cons
    obtain ⟨distinct, apart⟩ := ih inside
    refine ⟨List.nodup_cons.mpr ⟨fun member => apart asked member (List.mem_cons_self ..), distinct⟩,
      List.forall_mem_cons.mpr ⟨notBusy, fun interface member isBusy => ?_⟩⟩
    exact apart interface member (List.mem_cons_of_mem _ isBusy)

theorem unfinished (fails : Fails busy recipe registry error chain calls final) :
    ∀ interface ∈ chain, ∃ registration, final.find? interface = some registration ∧
      registration.cached = none := by
  induction chain generalizing busy recipe registry calls with
  | nil => exact List.forall_mem_nil _
  | cons asked rest ih =>
    obtain ⟨_, _, _, -, found, empty, -, inside⟩ := fails.of_cons
    refine List.forall_mem_cons.mpr ⟨?_, ih inside⟩
    obtain ⟨_, follows⟩ := inside.exists_follows
    obtain ⟨slot, after, -, idle⟩ := follows.serves found
    exact ⟨_, after, (idle (List.mem_cons_self ..) empty).2⟩

/-- The last factory of the chain failed by itself, in a registry with the same factories. -/
theorem of_getLast? {culprit : Interface}
    (fails : Fails busy recipe registry error chain calls final)
    (last : culprit ∈ chain.getLast?) :
    ∃ busy registration start calls, registry.find? culprit = some registration ∧
      start.factories = registry.factories ∧
        Fails busy registration.factory.recipe start error [] calls final := by
  induction chain generalizing busy recipe registry calls with
  | nil => cases last
  | cons asked rest ih =>
    obtain ⟨start, registration, inner, same, found, -, -, inside⟩ := fails.of_cons
    cases rest with
    | nil =>
      cases last
      obtain ⟨cached, before⟩ := find?_of_factories_eq same.symm found
      exact ⟨_, _, start, inner, before, same, inside⟩
    | cons next rest =>
      obtain ⟨busy, _, later, calls, found, same', alone⟩ := ih inside last
      obtain ⟨cached, before⟩ := find?_of_factories_eq same.symm found
      exact ⟨busy, _, later, calls, before, same'.trans same, alone⟩

end Fails

/-- The errors that a recipe itself can raise, depending on what it is handed: it fails, or asks for
what is not known. -/
inductive Raises (known : List Interface) : Recipe → RegistryError → Prop where
  | fail {label : String} : Raises known (.fail label) (.failed label)
  | unregistered {interface : Interface} {next : Component → Recipe} :
      interface ∉ known → Raises known (.need interface next) (.unregistered interface)
  | fresh {next : Nat → Recipe} {id : Nat} {error : RegistryError} :
      Raises known (next id) error → Raises known (.fresh next) error
  | need {interface : Interface} {next : Component → Recipe} {component : Component}
      {error : RegistryError} :
      Raises known (next component) error → Raises known (.need interface next) error

theorem Fails.raises {busy chain : List Interface} {recipe : Recipe} {registry final : Registry}
    {error : RegistryError} {calls : List Call}
    (fails : Fails busy recipe registry error chain calls final) (alone : chain = []) :
    Raises registry.interfaces recipe error := by
  induction fails with
  | fail => exact .fail
  | unregistered missing => exact .unregistered (find?_eq_none_iff.mp missing)
  | fresh _ ih => exact .fresh (ih alone)
  | cached _ _ _ ih => exact .need (ih alone)
  | @made _ _ asked _ _ between _ _ made _ _ _ _ _ _ makes _ ih =>
    have same := (interfaces_remember between asked made).trans makes.interfaces_eq
    rw [← same]
    exact .need (ih alone)
  | inside => cases alone

/-! ## What is kept -/

theorem keep_eq_some_iff {made component : Component} :
    keep made = some component ↔ made = component ∧ component.isNull = false := by
  unfold keep
  split
  · rename_i missing
    exact ⟨nofun, fun ⟨same, present⟩ => absurd (same ▸ missing) (by simp [present])⟩
  · rename_i present
    rw [Option.some.injEq]
    exact ⟨fun same => ⟨same, by simpa [← same] using present⟩, And.left⟩

namespace Serves

variable {factory : Factory} {singleton : Bool} {slot final : Option Component} {calls : List Call}

theorem stays {component : Component} (serves : Serves factory singleton slot calls final)
    (isKept : slot = some component) : final = some component := by
  induction serves with
  | nil => exact isKept
  | cached _ ih => exact ih isKept
  | made => cases isKept

theorem eq_some_iff (serves : Serves factory singleton slot calls final) {component : Component} :
    final = some component ↔ slot = some component ∨
      slot = none ∧ singleton = true ∧ component.isNull = false ∧
        ∃ call ∈ calls, call.ran = true ∧ call.component = component := by
  induction serves with
  | nil => simp
  | cached serves _ =>
    refine ⟨fun isFinal => .inl ?_, ?_⟩
    · rw [← serves.stays rfl, isFinal]
    · rintro (isKept | ⟨isEmpty, -⟩)
      · exact serves.stays isKept
      · cases isEmpty
  | @made interface made calls final _ serves ih =>
    rw [ih]
    constructor
    · rintro (isKept | ⟨-, once, present, call, member, ran⟩)
      · split at isKept
        · rename_i once
          obtain ⟨same, present⟩ := keep_eq_some_iff.mp isKept
          exact .inr ⟨rfl, once, present, _, List.mem_cons_self .., rfl, same⟩
        · cases isKept
      · exact .inr ⟨rfl, once, present, call, List.mem_cons_of_mem _ member, ran⟩
    · rintro (isKept | ⟨-, rfl, present, call, member, ran, same⟩)
      · cases isKept
      rw [if_pos rfl] at serves ⊢
      rcases List.mem_cons.mp member with rfl | member
      · exact .inl (keep_eq_some_iff.mpr ⟨same, present⟩)
      · -- A factory runs again only as long as nothing was kept.
        cases isEmpty : keep made with
        | none => exact .inr ⟨rfl, rfl, present, call, member, ran, same⟩
        | some kept =>
          have spared := (serves.kept isEmpty call member).1
          exact absurd (spared.symm.trans ran) Bool.false_ne_true

theorem eq_nil_of_not_ran (serves : Serves factory singleton none calls final)
    (spared : ∀ call ∈ calls, call.ran = false) : calls = [] := by
  cases serves with
  | nil => rfl
  | made => exact absurd (spared _ (List.mem_cons_self ..)) (by simp)

end Serves

theorem Follows.kept_iff {busy : List Interface} {recipe : Recipe} {registry final : Registry}
    {component : Component} {calls : List Call}
    (follows : Follows busy recipe registry component calls final) {interface : Interface}
    {made : Component} :
    final.kept interface = some made ↔ registry.kept interface = some made ∨
      (∃ factory, registry.find? interface = some ⟨factory, true, none⟩) ∧ made.isNull = false ∧
        ⟨interface, made, true⟩ ∈ calls := by
  cases found : registry.find? interface with
  | none =>
    have missing := find?_eq_none_of_factories_eq follows.factories_eq found
    simp [kept, found, missing]
  | some registration =>
    obtain ⟨slot, after, serves, -⟩ := follows.serves found
    rw [kept_eq after, kept_eq found, serves.eq_some_iff]
    obtain ⟨factory, singleton, cached⟩ := registration
    have call_iff : (∃ call ∈ callsOf interface calls, call.ran = true ∧ call.component = made) ↔
        ⟨interface, made, true⟩ ∈ calls := by
      constructor
      · rintro ⟨⟨asked, answer, ran⟩, member, isRun, isMade⟩
        obtain ⟨among, own⟩ := mem_callsOf.mp member
        cases own
        cases isRun
        cases isMade
        exact among
      · exact fun member => ⟨_, mem_callsOf.mpr ⟨member, rfl⟩, rfl, rfl⟩
    have once : (∃ same, some (⟨factory, singleton, cached⟩ : Registration) = some ⟨same, true, none⟩) ↔
        cached = none ∧ singleton = true := by
      simp [and_comm]
    rw [call_iff, once, and_assoc]

theorem Fails.kept_eq_none {busy chain : List Interface} {recipe : Recipe}
    {registry final : Registry} {error : RegistryError} {calls : List Call}
    (fails : Fails busy recipe registry error chain calls final) {interface : Interface}
    (atWork : interface ∈ chain) :
    registry.kept interface = none ∧ final.kept interface = none := by
  obtain ⟨registration, found, empty⟩ := fails.unfinished interface atWork
  have after : final.kept interface = none := (kept_eq found).trans empty
  obtain ⟨_, follows⟩ := fails.exists_follows
  refine ⟨Option.eq_none_iff_forall_ne_some.mpr fun component isKept => ?_, after⟩
  have stays := follows.kept_iff.mpr (.inl isKept)
  cases after.symm.trans stays

theorem Follows.avoids {busy : List Interface} {recipe : Recipe} {registry final : Registry}
    {component : Component} {calls : List Call}
    (follows : Follows busy recipe registry component calls final) {interface : Interface}
    (empty : registry.kept interface = none) (quiet : calls.countP (Call.isRunOf interface) = 0) :
    ∀ call ∈ calls, call.interface ≠ interface := by
  intro call member own
  have known := follows.registered call member
  rw [own, ← isSome_find?_iff] at known
  obtain ⟨registration, found⟩ := Option.isSome_iff_exists.mp known
  obtain ⟨slot, -, serves, -⟩ := follows.serves found
  rw [← kept_eq found, empty] at serves
  have none_of : callsOf interface calls = [] := by
    apply serves.eq_nil_of_not_ran
    intro other member
    obtain ⟨member, own⟩ := mem_callsOf.mp member
    have notRun := List.countP_eq_zero.mp quiet other member
    simpa [Call.isRunOf, own] using notRun
  have among := mem_callsOf.mpr ⟨member, own⟩
  rw [none_of] at among
  cases among

/-- What is kept for an interface stays, and its factory does not run. -/
def Spares (interface : Interface) (component : Component) (resolution : Resolution) : Prop :=
  resolution.registry.kept interface = some component ∧
    ∀ run ∈ resolution.runs, run.interface ≠ interface

section Spares

variable {interface : Interface} {component : Component} {registry : Registry}

theorem kept_remember_of_ne {other : Interface} (apart : other ≠ interface) (made : Component) :
    (registry.remember other made).kept interface = registry.kept interface := by
  rw [kept, find?_remember, if_neg apart, kept]

theorem spares_follow {resolve : Registry → Interface → Resolution}
    (spares : ∀ (registry : Registry) asked, registry.kept interface = some component →
      Spares interface component (resolve registry asked))
    (recipe : Recipe) (isKept : registry.kept interface = some component) :
    Spares interface component (follow resolve recipe registry) := by
  induction recipe generalizing registry with
  | give => exact ⟨isKept, List.forall_mem_nil _⟩
  | fail => exact ⟨isKept, List.forall_mem_nil _⟩
  | fresh next ih => exact ih registry.nextId isKept
  | need asked next ih =>
    obtain ⟨stays, spared⟩ := spares registry asked isKept
    cases resolved : resolve registry asked with
    | mk outcome between runs =>
      rw [resolved] at stays spared
      cases outcome with
      | error error =>
        rw [follow_need_of_failed next resolved]
        exact ⟨stays, spared⟩
      | ok made =>
        rw [follow_need_of_ok next resolved]
        obtain ⟨stays', spared'⟩ := ih made stays
        exact ⟨stays', List.forall_mem_append.mpr ⟨spared, spared'⟩⟩

theorem spares_resolveWithin (depth : Nat) (asked : Interface)
    (isKept : registry.kept interface = some component) :
    Spares interface component (resolveWithin depth registry asked) := by
  induction depth generalizing registry asked with
  | zero => exact ⟨isKept, List.forall_mem_nil _⟩
  | succ depth ih =>
    cases found : registry.find? asked with
    | none =>
      simp only [resolveWithin, found]
      exact ⟨isKept, List.forall_mem_nil _⟩
    | some registration =>
      cases empty : registration.cached with
      | some other =>
        rw [resolveWithin_of_cached depth found empty]
        exact ⟨isKept, List.forall_mem_nil _⟩
      | none =>
        have apart : asked ≠ interface := by
          rintro rfl
          rw [kept_eq found, empty] at isKept
          cases isKept
        obtain ⟨stays, spared⟩ := spares_follow (fun _ other isKept => ih other isKept)
          registration.factory.recipe isKept
        cases followed : follow (resolveWithin depth) registration.factory.recipe registry with
        | mk outcome between runs =>
          rw [followed] at stays spared
          cases outcome with
          | error error =>
            rw [resolveWithin_of_failed found empty followed]
            exact ⟨stays, List.forall_mem_cons.mpr ⟨apart, spared⟩⟩
          | ok made =>
            rw [resolveWithin_of_made found empty followed]
            exact ⟨(kept_remember_of_ne apart made).trans stays,
              List.forall_mem_cons.mpr ⟨apart, spared⟩⟩

/-- What is kept for an interface is kept until the interface is registered again or the registry is
reset, and until then its factory does not run. -/
theorem performAll_spares {operations : List Operation}
    (unchanged : ∀ operation ∈ operations, ¬ operation.Registers interface)
    (noReset : ∀ operation ∈ operations, operation ≠ .reset)
    (isKept : registry.kept interface = some component) :
    (registry.performAll operations).kept interface = some component ∧
      ∀ run ∈ registry.runs operations, run.interface ≠ interface := by
  induction operations generalizing registry with
  | nil => exact ⟨isKept, List.forall_mem_nil _⟩
  | cons operation rest ih =>
    obtain ⟨here, later⟩ := List.forall_mem_cons.mp unchanged
    obtain ⟨notReset, noLater⟩ := List.forall_mem_cons.mp noReset
    have unresolved (other : ∀ asked, operation ≠ .resolve asked) :
        (registry.perform operation).kept interface = some component := by
      rw [kept, find?_perform registry other notReset here]
      exact isKept
    cases operation with
    | resolve asked =>
      obtain ⟨stays, spared⟩ := spares_resolveWithin _ asked isKept
      obtain ⟨stays', spared'⟩ := ih later noLater stays
      exact ⟨stays', List.forall_mem_append.mpr ⟨spared, spared'⟩⟩
    | register => exact ih later noLater (unresolved (by simp))
    | registerInstance => exact ih later noLater (unresolved (by simp))
    | reset => exact absurd rfl notReset

end Spares

end Registry

end Stencil
