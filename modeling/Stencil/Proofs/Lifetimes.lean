import Stencil.Proofs.Resolving

/-! How long a registry keeps what it hands out.

Between registrations of an interface, and between resets, the calls of that interface are served in
one of three ways. A component that was registered is handed out always. A factory whose component is
kept runs for the first call and then no more. A factory whose component is not kept runs for every
call. What happens to other interfaces on the way makes no difference, also when they are resolved in
the middle of a resolution.
-/

set_option autoImplicit false

namespace Stencil

namespace Registry

/-! ## Operations -/

inductive Operation where
  | register (interface : Interface) (factory : Factory) (singleton : Bool)
  | registerInstance (interface : Interface) (component : Component)
  | resolve (interface : Interface)
  | reset

namespace Operation

def Registers (interface : Interface) : Operation → Prop
  | register known _ _ => known = interface
  | registerInstance known _ => known = interface
  | resolve _ => False
  | reset => False

instance (interface : Interface) : (operation : Operation) → Decidable (operation.Registers interface)
  | register known _ _ => inferInstanceAs (Decidable (known = interface))
  | registerInstance known _ => inferInstanceAs (Decidable (known = interface))
  | resolve _ => .isFalse id
  | reset => .isFalse id

@[simp]
theorem registers_register {interface known : Interface} {factory : Factory} {singleton : Bool} :
    (register known factory singleton).Registers interface ↔ known = interface :=
  Iff.rfl

@[simp]
theorem registers_registerInstance {interface known : Interface} {component : Component} :
    (registerInstance known component).Registers interface ↔ known = interface :=
  Iff.rfl

theorem Registers.unique {operation : Operation} {interface other : Interface}
    (first : operation.Registers interface) (second : operation.Registers other) :
    interface = other := by
  cases operation with
  | register => exact first.symm.trans second
  | registerInstance => exact first.symm.trans second
  | resolve => exact first.elim
  | reset => exact first.elim

/-- The last registration of an interface among operations, or the one known before them. -/
def latest (interface : Interface) (known : Option Operation) : List Operation → Option Operation
  | [] => known
  | operation :: rest =>
    latest interface (if operation.Registers interface then some operation else known) rest

end Operation

def perform (registry : Registry) : Operation → Registry
  | .register interface factory singleton => registry.register interface factory singleton
  | .registerInstance interface component => registry.registerInstance interface component
  | .resolve interface => (registry.resolve interface).registry
  | .reset => registry.reset

def performAll (registry : Registry) (operations : List Operation) : Registry :=
  operations.foldl perform registry

/-- The factories that run on the way. -/
def runs (registry : Registry) : List Operation → List Run
  | [] => []
  | .resolve interface :: rest =>
    (registry.resolve interface).runs ++ (registry.resolve interface).registry.runs rest
  | operation :: rest => (registry.perform operation).runs rest

/-- Operations are carried out one after the other, with the calls on the way. Resolutions of
registered interfaces come to an end. -/
inductive Performs : Registry → List Operation → List Call → Registry → Prop where
  | done {registry : Registry} : Performs registry [] [] registry
  | change {registry final : Registry} {operation : Operation} {rest : List Operation}
      {calls : List Call} :
      (∀ interface, operation ≠ .resolve interface) →
      Performs (registry.perform operation) rest calls final →
      Performs registry (operation :: rest) calls final
  | unregistered {registry final : Registry} {interface : Interface} {rest : List Operation}
      {calls : List Call} :
      registry.find? interface = none → Performs registry rest calls final →
      Performs registry (.resolve interface :: rest) calls final
  | resolve {registry between final : Registry} {interface : Interface} {component : Component}
      {rest : List Operation} {made calls : List Call} :
      Resolves registry interface component made between → Performs between rest calls final →
      Performs registry (.resolve interface :: rest) (made ++ calls) final

theorem resolve_of_unregistered {registry : Registry} {interface : Interface}
    (missing : registry.find? interface = none) :
    registry.resolve interface = ⟨.error (.unregistered interface), registry, []⟩ := by
  simp only [resolve, resolveWithin, missing]

namespace Performs

variable {registry final : Registry} {operations : List Operation} {calls : List Call}

theorem performAll_eq (performs : Performs registry operations calls final) :
    registry.performAll operations = final := by
  induction performs with
  | done => rfl
  | change _ _ ih => exact ih
  | unregistered missing _ ih =>
    rw [performAll, List.foldl_cons, perform, resolve_of_unregistered missing]
    exact ih
  | resolve resolves _ ih =>
    obtain ⟨runs, resolved, -⟩ := resolves.resolve_eq
    rw [performAll, List.foldl_cons, perform, resolved]
    exact ih

theorem countP_runs (performs : Performs registry operations calls final) (interface : Interface) :
    (registry.runs operations).countP (·.interface = interface) =
      calls.countP (Call.isRunOf interface) := by
  induction performs with
  | done => rfl
  | @change _ _ operation _ _ other _ ih =>
    cases operation with
    | resolve interface => exact absurd rfl (other interface)
    | register => exact ih
    | registerInstance => exact ih
    | reset => exact ih
  | unregistered missing _ ih =>
    rw [runs, resolve_of_unregistered missing]
    exact ih
  | resolve resolves _ ih =>
    obtain ⟨runs, resolved, counts⟩ := resolves.resolve_eq
    rw [Registry.runs, resolved, List.countP_append, List.countP_append, counts, ih]

theorem split {first second : List Operation}
    (performs : Performs registry (first ++ second) calls final) :
    ∃ firstCalls secondCalls between, calls = firstCalls ++ secondCalls ∧
      Performs registry first firstCalls between ∧
      Performs between second secondCalls final := by
  induction first generalizing registry calls with
  | nil => exact ⟨[], calls, registry, rfl, .done, performs⟩
  | cons operation rest ih =>
    cases performs with
    | change other rest =>
      obtain ⟨firstCalls, secondCalls, between, rfl, first, second⟩ := ih rest
      exact ⟨_, _, between, rfl, .change other first, second⟩
    | unregistered missing rest =>
      obtain ⟨firstCalls, secondCalls, between, rfl, first, second⟩ := ih rest
      exact ⟨_, _, between, rfl, .unregistered missing first, second⟩
    | resolve resolves rest =>
      obtain ⟨firstCalls, secondCalls, between, rfl, first, second⟩ := ih rest
      exact ⟨_, _, between, (List.append_assoc _ _ _).symm, .resolve resolves first, second⟩

end Performs

/-! ## The calls of one interface -/

def callsOf (interface : Interface) (calls : List Call) : List Call :=
  calls.filter (·.interface = interface)

theorem mem_callsOf {interface : Interface} {calls : List Call} {call : Call} :
    call ∈ callsOf interface calls ↔ call ∈ calls ∧ call.interface = interface := by
  rw [callsOf, List.mem_filter, decide_eq_true_eq]

theorem callsOf_append (interface : Interface) (calls later : List Call) :
    callsOf interface (calls ++ later) = callsOf interface calls ++ callsOf interface later :=
  List.filter_append ..

theorem callsOf_cons_self (call : Call) (later : List Call) :
    callsOf call.interface (call :: later) = call :: callsOf call.interface later :=
  List.filter_cons_of_pos (decide_eq_true rfl)

theorem callsOf_cons_of_ne {interface : Interface} {call : Call} (other : call.interface ≠ interface)
    (later : List Call) : callsOf interface (call :: later) = callsOf interface later :=
  List.filter_cons_of_neg (by simpa using other)

theorem countP_callsOf (interface : Interface) (calls : List Call) :
    (callsOf interface calls).countP (Call.isRunOf interface) =
      calls.countP (Call.isRunOf interface) := by
  rw [callsOf, List.countP_filter]
  apply List.countP_congr
  intro call _
  simp +contextual [Call.isRunOf]

/-- What becomes of the component that is kept for an interface while its calls are served. -/
inductive Serves (factory : Factory) (singleton : Bool) :
    Option Component → List Call → Option Component → Prop where
  | nil {slot : Option Component} : Serves factory singleton slot [] slot
  | cached {interface : Interface} {kept : Component} {calls : List Call}
      {slot : Option Component} :
      Serves factory singleton (some kept) calls slot →
      Serves factory singleton (some kept) (⟨interface, kept, false⟩ :: calls) slot
  | made {interface : Interface} {made : Component} {calls : List Call} {slot : Option Component} :
      (∀ component, factory.recipe = .give component → made = component) →
      Serves factory singleton (if singleton then keep made else none) calls slot →
      Serves factory singleton none (⟨interface, made, true⟩ :: calls) slot

namespace Serves

variable {factory : Factory} {singleton : Bool} {slot between final : Option Component}
  {calls later : List Call}

theorem append (first : Serves factory singleton slot calls between)
    (second : Serves factory singleton between later final) :
    Serves factory singleton slot (calls ++ later) final := by
  induction first with
  | nil => exact second
  | cached _ ih => exact .cached (ih second)
  | made ready _ ih => exact .made ready (ih second)

theorem transient (serves : Serves factory false slot calls final) (empty : slot = none) :
    final = none ∧ ∀ call ∈ calls, call.ran = true := by
  induction serves with
  | nil => exact ⟨empty, by simp⟩
  | cached => exact absurd empty (by simp)
  | made _ _ ih =>
    obtain ⟨after, ran⟩ := ih rfl
    exact ⟨after, List.forall_mem_cons.mpr ⟨rfl, ran⟩⟩

theorem eq_of_mem_keep {component kept : Component} (isKept : kept ∈ keep component) :
    kept = component := by
  unfold keep at isKept
  split at isKept
  · exact absurd isKept (by simp)
  · exact (Option.mem_some.mp isKept).symm

theorem ready {component : Component}
    (serves : Serves ⟨none, .give component⟩ true slot calls final)
    (own : ∀ kept ∈ slot, kept = component) :
    (∀ kept ∈ final, kept = component) ∧ ∀ call ∈ calls, call.component = component := by
  induction serves with
  | nil => exact ⟨own, by simp⟩
  | cached _ ih =>
    obtain ⟨after, same⟩ := ih own
    exact ⟨after, List.forall_mem_cons.mpr ⟨own _ rfl, same⟩⟩
  | made gives _ ih =>
    have same := gives component rfl
    subst same
    obtain ⟨after, others⟩ := ih fun kept isKept => eq_of_mem_keep isKept
    exact ⟨after, List.forall_mem_cons.mpr ⟨rfl, others⟩⟩

theorem kept {component : Component} (serves : Serves factory true slot calls final)
    (isKept : slot = some component) :
    ∀ call ∈ calls, call.ran = false ∧ call.component = component := by
  induction serves with
  | nil => simp
  | cached _ ih =>
    cases isKept
    exact List.forall_mem_cons.mpr ⟨⟨rfl, rfl⟩, ih rfl⟩
  | made => exact absurd isKept (by simp)

theorem once (serves : Serves factory true none calls final)
    (present : ∀ call ∈ calls, call.component.isNull = false) (interface : Interface)
    (own : ∀ call ∈ calls, call.interface = interface) :
    calls.countP (Call.isRunOf interface) = (if calls = [] then 0 else 1) ∧
      ∃ component, ∀ call ∈ calls, call.component = component := by
  cases serves with
  | nil => exact ⟨rfl, .null, by simp⟩
  | @made _ made rest _ _ later =>
    obtain ⟨here, -⟩ := List.forall_mem_cons.mp present
    obtain ⟨same, -⟩ := List.forall_mem_cons.mp own
    rw [show keep made = some made by simpa [keep] using here, if_pos rfl] at later
    have others := later.kept rfl
    have none_ran : rest.countP (Call.isRunOf interface) = 0 := by
      rw [List.countP_eq_zero]
      intro call member
      simp [Call.isRunOf, (others call member).1]
    refine ⟨?_, made, List.forall_mem_cons.mpr ⟨rfl, fun call member => (others call member).2⟩⟩
    rw [if_neg (List.cons_ne_nil _ _), List.countP_cons_of_pos (by simpa [Call.isRunOf] using same),
      none_ran]

end Serves

theorem Follows.give_eq {busy : List Interface} {given component : Component}
    {registry final : Registry} {calls : List Call}
    (follows : Follows busy (.give given) registry component calls final) : component = given := by
  cases follows
  rfl

/-- The calls of one interface are served on the way through a recipe, whatever else is made
meanwhile. While a component is being made for the interface itself, nobody asks for it. -/
theorem Follows.serves {busy : List Interface} {recipe : Recipe} {registry final : Registry}
    {component : Component} {calls : List Call}
    (follows : Follows busy recipe registry component calls final) {interface : Interface}
    {registration : Registration} (found : registry.find? interface = some registration) :
    ∃ slot, final.find? interface = some { registration with cached := slot } ∧
      Serves registration.factory registration.singleton registration.cached
        (callsOf interface calls) slot ∧
      (interface ∈ busy → registration.cached = none →
        callsOf interface calls = [] ∧ slot = none) := by
  induction follows generalizing registration with
  | give => exact ⟨registration.cached, found, .nil, fun _ empty => ⟨rfl, empty⟩⟩
  | fresh _ ih => exact ih found
  | @cached _ asked _ _ _ other kept _ _ foundOther isKept _ ih =>
    obtain ⟨slot, after, serves, idle⟩ := ih found
    by_cases same : asked = interface
    · subst same
      cases found.symm.trans foundOther
      rw [callsOf_cons_self ⟨asked, kept, false⟩, isKept]
      rw [isKept] at serves
      exact ⟨slot, after, .cached serves, fun _ empty => by simp at empty⟩
    · rw [callsOf_cons_of_ne same]
      exact ⟨slot, after, serves, idle⟩
  | @made busy asked _ _ between _ other made _ _ _ foundOther empty notBusy inner _ innerIh ih =>
    obtain ⟨slot, stays, serves, idle⟩ := innerIh found
    have remembered := find?_remember between asked interface made
    rw [stays, Option.map_some] at remembered
    rw [callsOf_append]
    by_cases same : asked = interface
    · subst same
      cases found.symm.trans foundOther
      -- Inside, nobody asked for the interface, so that its own call is the first one.
      obtain ⟨quiet, rfl⟩ := idle (List.mem_cons_self ..) empty
      rw [if_pos rfl] at remembered
      obtain ⟨slot, after, serves, -⟩ := ih remembered
      rw [quiet, List.nil_append, callsOf_cons_self ⟨asked, made, true⟩, empty]
      refine ⟨slot, after, .made ?_ serves, fun isBusy => absurd isBusy notBusy⟩
      intro given recipe
      rw [recipe] at inner
      exact inner.give_eq
    · rw [if_neg same] at remembered
      obtain ⟨last, after, servesLater, idleLater⟩ := ih remembered
      rw [callsOf_cons_of_ne same]
      refine ⟨last, after, serves.append servesLater, fun isBusy isEmpty => ?_⟩
      obtain ⟨quiet, rfl⟩ := idle (List.mem_cons_of_mem _ isBusy) isEmpty
      obtain ⟨quietLater, rfl⟩ := idleLater isBusy rfl
      exact ⟨by rw [quiet, quietLater, List.nil_append], rfl⟩

/-! ## Registrations and what became of them -/

theorem find?_reset (registry : Registry) (interface : Interface) :
    registry.reset.find? interface =
      (registry.find? interface).map fun registration => { registration with cached := none } := by
  obtain ⟨registrations, nextId⟩ := registry
  unfold find? reset
  induction registrations with
  | nil => rfl
  | cons entry rest ih =>
    obtain ⟨known, registration⟩ := entry
    by_cases same : known = interface
    · simp [same]
    · simpa [same] using ih

theorem find?_perform (registry : Registry) {operation : Operation} {interface : Interface}
    (notResolve : ∀ asked, operation ≠ .resolve asked) (notReset : operation ≠ .reset)
    (other : ¬ operation.Registers interface) :
    (registry.perform operation).find? interface = registry.find? interface := by
  cases operation with
  | resolve asked => exact absurd rfl (notResolve asked)
  | reset => exact absurd rfl notReset
  | register changed =>
    rw [Operation.registers_register] at other
    rw [perform, register, find?_put, if_neg other]
  | registerInstance changed =>
    rw [Operation.registers_registerInstance] at other
    rw [perform, registerInstance, find?_put, if_neg other]

theorem find?_perform_of_other (registry : Registry) {operation : Operation}
    {interface other : Interface} (registers : operation.Registers other)
    (apart : other ≠ interface) :
    (registry.perform operation).find? interface = registry.find? interface := by
  apply find?_perform registry
  · rintro asked rfl
    exact registers
  · rintro rfl
    exact registers
  · exact fun own => apart (registers.unique own)

/-- What is found for an interface agrees with its last registration. -/
inductive Agrees : Option Operation → Option Registration → Prop where
  | unknown : Agrees none none
  | transient {interface : Interface} {factory : Factory} :
      Agrees (some (.register interface factory false)) (some ⟨factory, false, none⟩)
  | singleton {interface : Interface} {factory : Factory} {cached : Option Component} :
      Agrees (some (.register interface factory true)) (some ⟨factory, true, cached⟩)
  | ready {interface : Interface} {component : Component} {cached : Option Component} :
      (∀ kept ∈ cached, kept = component) →
      Agrees (some (.registerInstance interface component))
        (some ⟨⟨none, .give component⟩, true, cached⟩)

/-- A call is answered as the last registration of its interface says. -/
def Suits (call : Call) : Option Operation → Prop
  | some (.registerInstance _ component) => call.component = component
  | some (.register _ _ false) => call.ran = true
  | some (.register _ _ true) => True
  | _ => False

theorem Follows.registered {busy : List Interface} {recipe : Recipe} {registry final : Registry}
    {component : Component} {calls : List Call}
    (follows : Follows busy recipe registry component calls final) :
    ∀ call ∈ calls, call.interface ∈ registry.interfaces := by
  induction follows with
  | give => simp
  | fresh _ ih => exact ih
  | cached found _ _ ih =>
    exact List.forall_mem_cons.mpr ⟨isSome_find?_iff.mp (Option.isSome_of_mem found), ih⟩
  | @made _ asked _ _ between _ _ made _ _ _ found _ _ inner _ innerIh ih =>
    have same := (interfaces_remember between asked made).trans inner.interfaces_eq
    rw [same] at ih
    intro call member
    rcases List.mem_append.mp member with within | later
    · exact innerIh call within
    · rcases List.mem_cons.mp later with rfl | later
      · exact isSome_find?_iff.mp (Option.isSome_of_mem found)
      · exact ih call later

namespace Agrees

variable {known : Option Operation} {registry final : Registry} {interface : Interface}
  {operation : Operation}

theorem serves {registration : Registration} {calls : List Call} {slot : Option Component}
    (agrees : Agrees known (some registration))
    (serves : Serves registration.factory registration.singleton registration.cached calls slot) :
    Agrees known (some { registration with cached := slot }) ∧ ∀ call ∈ calls, Suits call known := by
  cases agrees with
  | transient =>
    obtain ⟨rfl, ran⟩ := serves.transient rfl
    exact ⟨.transient, ran⟩
  | singleton => exact ⟨.singleton, fun _ _ => trivial⟩
  | ready own =>
    obtain ⟨after, same⟩ := serves.ready own
    exact ⟨.ready after, same⟩

theorem follows {busy : List Interface} {recipe : Recipe} {component : Component}
    {calls : List Call} (agrees : Agrees known (registry.find? interface))
    (follows : Follows busy recipe registry component calls final) :
    Agrees known (final.find? interface) ∧
      ∀ call ∈ calls, call.interface = interface → Suits call known := by
  cases found : registry.find? interface with
  | none =>
    have unknown := find?_eq_none_iff.mp found
    have stays := find?_eq_none_of_factories_eq follows.factories_eq found
    refine ⟨by rwa [stays, ← found], fun call member same => ?_⟩
    exact absurd (same ▸ follows.registered call member) unknown
  | some registration =>
    obtain ⟨slot, after, serves, -⟩ := follows.serves found
    rw [found] at agrees
    obtain ⟨agrees, suits⟩ := agrees.serves serves
    refine ⟨by rwa [after], fun call member same => suits call ?_⟩
    exact mem_callsOf.mpr ⟨member, same⟩

theorem reset (agrees : Agrees known (registry.find? interface)) :
    Agrees known (registry.reset.find? interface) := by
  rw [find?_reset]
  generalize registry.find? interface = found at agrees
  cases agrees with
  | unknown => exact .unknown
  | transient => exact .transient
  | singleton => exact .singleton
  | ready => exact .ready (by simp)

theorem perform (agrees : Agrees known (registry.find? interface))
    (other : ∀ asked, operation ≠ .resolve asked) :
    Agrees (if operation.Registers interface then some operation else known)
      ((registry.perform operation).find? interface) := by
  cases operation with
  | resolve asked => exact absurd rfl (other asked)
  | reset => exact agrees.reset
  | register changed factory singleton =>
    rw [Registry.perform, register, find?_put]
    by_cases same : changed = interface
    · simp only [Operation.registers_register, same, if_true]
      cases singleton with
      | false => exact .transient
      | true => exact .singleton
    · simpa only [Operation.registers_register, same, if_false] using agrees
  | registerInstance changed component =>
    rw [Registry.perform, registerInstance, find?_put]
    by_cases same : changed = interface
    · simp only [Operation.registers_registerInstance, same, if_true]
      exact .ready fun kept isKept => Serves.eq_of_mem_keep isKept
    · simpa only [Operation.registers_registerInstance, same, if_false] using agrees

end Agrees

namespace Performs

variable {known : Option Operation} {registry final : Registry} {operations : List Operation}
  {calls : List Call} {interface : Interface}

theorem agrees (performs : Performs registry operations calls final)
    (agrees : Agrees known (registry.find? interface)) :
    Agrees (Operation.latest interface known operations) (final.find? interface) := by
  induction performs generalizing known with
  | done => exact agrees
  | change other _ ih => exact ih (agrees.perform other)
  | unregistered _ _ ih => exact ih agrees
  | resolve resolves _ ih => exact ih (agrees.follows resolves).1

/-- Until an interface is registered again, its calls are answered as the last registration says. -/
theorem suits (performs : Performs registry operations calls final)
    (agrees : Agrees known (registry.find? interface))
    (unchanged : ∀ operation ∈ operations, ¬ operation.Registers interface) :
    ∀ call ∈ calls, call.interface = interface → Suits call known := by
  induction performs with
  | done => simp
  | change other _ ih =>
    obtain ⟨here, later⟩ := List.forall_mem_cons.mp unchanged
    have stays := agrees.perform other
    rw [if_neg here] at stays
    exact ih stays later
  | unregistered _ _ ih => exact ih agrees (List.forall_mem_cons.mp unchanged).2
  | resolve resolves _ ih =>
    obtain ⟨stays, made⟩ := agrees.follows resolves
    have later := ih stays (List.forall_mem_cons.mp unchanged).2
    intro call member
    rcases List.mem_append.mp member with within | after
    · exact made call within
    · exact later call after

theorem serves {registration : Registration}
    (performs : Performs registry operations calls final)
    (found : registry.find? interface = some registration)
    (unchanged : ∀ operation ∈ operations, ¬ operation.Registers interface)
    (noReset : ∀ operation ∈ operations, operation ≠ .reset) :
    ∃ slot, final.find? interface = some { registration with cached := slot } ∧
      Serves registration.factory registration.singleton registration.cached
        (callsOf interface calls) slot := by
  induction performs generalizing registration with
  | done => exact ⟨_, found, .nil⟩
  | @change registry _ operation _ _ other _ ih =>
    obtain ⟨here, later⟩ := List.forall_mem_cons.mp unchanged
    obtain ⟨notReset, noReset⟩ := List.forall_mem_cons.mp noReset
    have stays := find?_perform registry other notReset here
    rw [found] at stays
    exact ih stays later noReset
  | unregistered _ _ ih =>
    exact ih found (List.forall_mem_cons.mp unchanged).2 (List.forall_mem_cons.mp noReset).2
  | resolve resolves _ ih =>
    obtain ⟨slot, between, first, -⟩ := Follows.serves resolves found
    obtain ⟨last, after, second⟩ := ih between (List.forall_mem_cons.mp unchanged).2
      (List.forall_mem_cons.mp noReset).2
    rw [callsOf_append]
    exact ⟨last, after, first.append second⟩

end Performs

theorem Agrees.eq_none_iff {known : Option Operation} {found : Option Registration}
    (agrees : Agrees known found) : found = none ↔ known = none := by
  cases agrees <;> simp

theorem Agrees.of_register {interface : Interface} {factory : Factory} {singleton : Bool}
    {found : Option Registration}
    (agrees : Agrees (some (.register interface factory singleton)) found) :
    ∃ cached, found = some ⟨factory, singleton, cached⟩ := by
  cases agrees with
  | transient => exact ⟨_, rfl⟩
  | singleton => exact ⟨_, rfl⟩

theorem Operation.latest_eq_none_iff {interface : Interface} {known : Option Operation}
    {operations : List Operation} :
    latest interface known operations = none ↔
      known = none ∧ ∀ operation ∈ operations, ¬ operation.Registers interface := by
  induction operations generalizing known with
  | nil => simp [latest]
  | cons operation rest ih =>
    rw [latest, ih, List.forall_mem_cons]
    by_cases here : operation.Registers interface <;> simp [here]

theorem Performs.append {registry between final : Registry} {first second : List Operation}
    {calls later : List Call} (performs : Performs registry first calls between)
    (goesOn : Performs between second later final) :
    Performs registry (first ++ second) (calls ++ later) final := by
  induction performs with
  | done => exact goesOn
  | change other _ ih => exact .change other (ih goesOn)
  | unregistered missing _ ih => exact .unregistered missing (ih goesOn)
  | resolve resolves _ ih =>
    rw [List.append_assoc]
    exact .resolve resolves (ih goesOn)

theorem Performs.find?_eq_none_iff {registry : Registry} {operations : List Operation}
    {calls : List Call} (performs : Performs .empty operations calls registry)
    {interface : Interface} :
    registry.find? interface = none ↔
      ∀ operation ∈ operations, ¬ operation.Registers interface := by
  have agrees : Agrees (Operation.latest interface none operations) (registry.find? interface) :=
    performs.agrees .unknown
  rw [agrees.eq_none_iff, Operation.latest_eq_none_iff]
  simp

theorem Performs.exists_perform_last {registry final : Registry} {operations : List Operation}
    {last : Operation} {calls : List Call} (performs : Performs registry operations calls final)
    (ends : operations.getLast? = some last) : ∃ between : Registry, between.perform last = final := by
  obtain ⟨earlier, rfl⟩ := List.getLast?_eq_some_iff.mp ends
  obtain ⟨_, _, between, -, -, performed⟩ := performs.split
  exact ⟨between, performed.performAll_eq⟩

theorem Performs.cached_eq_none {registry final : Registry} {operations : List Operation}
    {calls : List Call} {interface : Interface} {factory : Factory} {registration : Registration}
    (performs : Performs registry operations calls final)
    (clears : operations.getLast? = some .reset ∨
      operations.getLast? = some (.register interface factory true))
    (found : final.find? interface = some registration) : registration.cached = none := by
  rcases clears with ends | ends
  · obtain ⟨between, rfl⟩ := performs.exists_perform_last ends
    rw [perform, find?_reset, Option.map_eq_some_iff] at found
    obtain ⟨_, -, rfl⟩ := found
    rfl
  · obtain ⟨between, rfl⟩ := performs.exists_perform_last ends
    rw [perform, register, find?_put, if_pos rfl] at found
    cases found
    rfl

theorem Resolves.mem_calls {registry final : Registry} {interface : Interface}
    {component : Component} {calls : List Call}
    (resolves : Resolves registry interface component calls final) :
    ∃ ran, ⟨interface, component, ran⟩ ∈ calls := by
  cases resolves with
  | cached _ _ gives =>
    cases gives
    exact ⟨false, List.mem_cons_self ..⟩
  | made _ _ _ _ gives =>
    cases gives
    exact ⟨true, List.mem_append_right _ (List.mem_cons_self ..)⟩

/-- Factories can be ranked whenever something is resolved, not always in the same way. -/
def RankedThroughout (registry : Registry) (operations : List Operation) : Prop :=
  ∀ above asked below, operations = above ++ .resolve asked :: below →
    ∃ rank, Ranked rank (registry.performAll above)

/-- Ranked factories bring every sequence of operations to its end. -/
theorem exists_performs {operations : List Operation} {registry : Registry}
    (ranked : registry.RankedThroughout operations) :
    ∃ calls final, Performs registry operations calls final := by
  induction operations generalizing registry with
  | nil => exact ⟨[], registry, .done⟩
  | cons operation rest ih =>
    have later : (registry.perform operation).RankedThroughout rest := by
      intro above asked below split
      exact ranked (operation :: above) asked below (by rw [split, List.cons_append])
    obtain ⟨calls, final, performs⟩ := ih later
    by_cases isResolve : ∃ asked, operation = .resolve asked
    · obtain ⟨asked, rfl⟩ := isResolve
      cases found : registry.find? asked with
      | none =>
        rw [perform, resolve_of_unregistered found] at performs
        exact ⟨calls, final, .unregistered found performs⟩
      | some registration =>
        obtain ⟨rank, isRanked⟩ : ∃ rank, Ranked rank registry := ranked [] asked rest rfl
        have known := isSome_find?_iff.mp (Option.isSome_of_mem found)
        obtain ⟨component, made, between, resolves⟩ := isRanked.exists_resolves known
        obtain ⟨runs, resolved, -⟩ := resolves.resolve_eq
        rw [perform, resolved] at performs
        exact ⟨made ++ calls, final, .resolve resolves performs⟩
    · exact ⟨calls, final, .change (fun asked same => isResolve ⟨asked, same⟩) performs⟩

/-! ## Lifetimes -/

/-- What is true of the operations between two points of a run, and of the calls on the way. -/
structure KeepsLifetimes (before span : List Operation) (start : Registry) (during : List Call)
    (interface : Interface) : Prop where
  reached : Registry.empty.performAll before = start
  /-- What was never registered is refused. -/
  unregistered : ∀ above asked below, span = above ++ .resolve asked :: below →
    (∀ operation ∈ before ++ above, ¬ operation.Registers asked) →
    ((start.performAll above).resolve asked).outcome = .error (.unregistered asked)
  registered : ∀ above asked below, span = above ++ .resolve asked :: below →
    (∃ operation ∈ before ++ above, operation.Registers asked) →
    ∃ component ran, ((start.performAll above).resolve asked).outcome = .ok component ∧
      ⟨asked, component, ran⟩ ∈ during
  /-- A component that was registered is handed out until the next registration, resets or not. -/
  ready : ∀ component, Operation.latest interface none before =
      some (.registerInstance interface component) →
    (∀ operation ∈ span, ¬ operation.Registers interface) →
    ∀ call ∈ callsOf interface during, call.component = component
  /-- A factory whose component is kept runs once, if at all, from a registration or a reset up to
  the next one. -/
  singleton : ∀ factory, Operation.latest interface none before =
      some (.register interface factory true) →
    (before.getLast? = some .reset ∨
      before.getLast? = some (.register interface factory true)) →
    (∀ operation ∈ span, ¬ operation.Registers interface) →
    (∀ operation ∈ span, operation ≠ .reset) →
    (∀ call ∈ callsOf interface during, call.component.isNull = false) →
    (start.runs span).countP (·.interface = interface) =
        (if callsOf interface during = [] then 0 else 1) ∧
      ∃ component, ∀ call ∈ callsOf interface during, call.component = component
  /-- A factory whose component is not kept runs for every call. -/
  transient : ∀ factory, Operation.latest interface none before =
      some (.register interface factory false) →
    (∀ operation ∈ span, ¬ operation.Registers interface) →
    (start.runs span).countP (·.interface = interface) = (callsOf interface during).length
  /-- The registration of another interface changes nothing for this one, at any time. -/
  others : ∀ (registry : Registry) (operation : Operation) (other : Interface),
    operation.Registers other → other ≠ interface →
    (registry.perform operation).find? interface = registry.find? interface

/-- Lifetimes are kept between any two points of a run, and from there every sequence of operations
with ranked factories goes on. -/
theorem lifetimes_over_runs {before span : List Operation} {start final : Registry}
    {earlier during : List Call} (began : Performs .empty before earlier start)
    (went : Performs start span during final) (interface : Interface) :
    KeepsLifetimes before span start during interface ∧
      ∀ more, final.RankedThroughout more → ∃ calls last, Performs final more calls last := by
  refine ⟨?_, fun more ranked => exists_performs ranked⟩
  have agrees : Agrees (Operation.latest interface none before) (start.find? interface) :=
    began.agrees .unknown
  constructor
  case reached => exact began.performAll_eq
  case unregistered =>
    rintro above asked below rfl never
    obtain ⟨_, _, between, rfl, above, -⟩ := went.split
    have missing := (began.append above).find?_eq_none_iff.mpr never
    rw [above.performAll_eq, resolve_of_unregistered missing]
  case registered =>
    rintro above asked below rfl ⟨operation, member, registers⟩
    obtain ⟨_, _, between, rfl, above, resolved⟩ := went.split
    rw [above.performAll_eq]
    cases resolved with
    | change other => exact absurd rfl (other asked)
    | unregistered missing =>
      -- Nobody is refused whose interface was registered, before the span or within it.
      have never := (began.append above).find?_eq_none_iff.mp missing
      exact absurd registers (never operation member)
    | resolve resolves _ =>
      obtain ⟨ran, answered⟩ := resolves.mem_calls
      obtain ⟨runs, outcome, -⟩ := resolves.resolve_eq
      refine ⟨_, ran, by rw [outcome], ?_⟩
      exact List.mem_append_right _ (List.mem_append_left _ answered)
  case ready =>
    intro component isLatest unchanged call member
    obtain ⟨member, own⟩ := mem_callsOf.mp member
    rw [isLatest] at agrees
    exact went.suits agrees unchanged call member own
  case singleton =>
    intro factory isLatest clears unchanged noReset present
    rw [isLatest] at agrees
    obtain ⟨cached, found⟩ := agrees.of_register
    -- At the start nothing is kept, whichever operation was the last one before.
    have empty := began.cached_eq_none clears found
    obtain ⟨_, -, serves⟩ := went.serves found unchanged noReset
    rw [empty] at serves
    rw [went.countP_runs, ← countP_callsOf]
    exact serves.once present interface fun call member => (mem_callsOf.mp member).2
  case transient =>
    intro factory isLatest unchanged
    rw [isLatest] at agrees
    rw [went.countP_runs, ← countP_callsOf, List.countP_eq_length]
    intro call member
    obtain ⟨member, own⟩ := mem_callsOf.mp member
    have ran : call.ran = true := went.suits agrees unchanged call member own
    simp [Call.isRunOf, own, ran]
  case others => exact fun registry _ _ => find?_perform_of_other registry

/-- A scoring that is kept is made once after a reset, for the first of two pages. -/
theorem lifetimes_over_runs_of_pages :
    let scoring : Factory := ⟨none, .fresh fun id => .give (.scoring id)⟩
    let page : Factory :=
      ⟨none, .need .scoring fun scoring => .fresh fun id => .give (.labelled id "page" scoring)⟩
    let before : List Operation := [.register .scoring scoring true,
      .register .extractor page false, .resolve .extractor, .reset]
    let span : List Operation := [.resolve .extractor, .resolve .extractor, .resolve .fileSystem]
    let during : List Call := [⟨.scoring, .scoring 2, true⟩,
      ⟨.extractor, .labelled 3 "page" (.scoring 2), true⟩, ⟨.scoring, .scoring 2, false⟩,
      ⟨.extractor, .labelled 4 "page" (.scoring 2), true⟩]
    ∃ earlier start final, Performs .empty before earlier start ∧ Performs start span during final ∧
      KeepsLifetimes before span start during .scoring ∧
      (start.runs span).countP (·.interface = .scoring) = 1 := by
  intro scoring page before span during
  have began : Performs .empty before _ _ :=
    .change nofun <| .change nofun <|
    .resolve (.made rfl rfl List.not_mem_nil
      (.made rfl rfl (by decide) (.fresh .give) (.fresh .give)) .give) <|
    .change nofun .done
  obtain ⟨earlier, start, began, final, went⟩ : ∃ earlier start,
      Performs .empty before earlier start ∧ ∃ final, Performs start span during final := by
    refine ⟨_, _, began, ?_⟩
    apply Exists.intro
    change Performs _ span ([] ++ [_] ++ [_] ++ ([_] ++ [_] ++ [])) _
    -- The second page finds the scoring that was made for the first; files are not registered.
    apply Performs.resolve
    · exact .made rfl rfl List.not_mem_nil
        (.made rfl rfl (by decide) (.fresh .give) (.fresh .give)) .give
    · apply Performs.resolve
      · exact .made rfl rfl List.not_mem_nil (.cached rfl rfl (.fresh .give)) .give
      · exact .unregistered rfl .done
  have keeps := (lifetimes_over_runs began went .scoring).1
  have once := keeps.singleton scoring rfl (.inl rfl) (by decide) (by simp [span]) (by decide)
  exact ⟨earlier, start, final, began, went, keeps, once.1⟩

end Registry

end Stencil
