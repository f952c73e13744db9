import Stencil.Registry.Component
import Stencil.Text.Quoted

/-!
Registries. A registry knows for each interface how to make the component that stands behind it, and
whether to make it once or every time. Factories may ask the registry for other components.
-/

set_option autoImplicit false

namespace Stencil

/-- What a factory does: it asks for components, makes new objects, and hands one out or fails. -/
inductive Recipe where
  | give (component : Component)
  | fail (label : String)
  /-- Goes on with the identity of a new object. -/
  | fresh (next : Nat → Recipe)
  /-- Goes on with the component behind an interface. -/
  | need (interface : Interface) (next : Component → Recipe)

/-- A recipe, and the label under which its runs are recorded, if they are. -/
structure Factory where
  label : Option String
  recipe : Recipe

structure Registration where
  factory : Factory
  singleton : Bool
  cached : Option Component

/-- Registrations in the order in which their interfaces were first registered, and the next unused
identity. -/
structure Registry where
  registrations : List (Interface × Registration)
  nextId : Nat

inductive RegistryError where
  | unregistered (interface : Interface)
  | failed (label : String)
  /-- The factories behind an interface ask for each other without end. -/
  | cyclic (interface : Interface)
  /-- The component behind an interface cannot do what was asked of it. -/
  | unusable (interface : Interface)
  deriving DecidableEq, Repr

def RegistryError.message : RegistryError → String
  | unregistered interface =>
    String.ofList (Text.quoted s!"No factory registered for <class '{interface.label}'>".toList)
  | failed label => label
  | cyclic _ => "maximum recursion depth exceeded"
  | unusable interface => s!"unusable component behind {interface.label}"

structure Run where
  interface : Interface
  label : Option String
  deriving DecidableEq, Repr

/-- What came of resolving an interface: the component or an error, the registry afterwards, and the
factories that ran, in the order in which they began. -/
structure Resolution where
  outcome : Except RegistryError Component
  registry : Registry
  runs : List Run

namespace Registry

def empty : Registry := ⟨[], 0⟩

def putIn (interface : Interface) (registration : Registration) :
    List (Interface × Registration) → List (Interface × Registration)
  | [] => [(interface, registration)]
  | (known, old) :: rest =>
    if known = interface then (interface, registration) :: rest
    else (known, old) :: putIn interface registration rest

def find? (registry : Registry) (interface : Interface) : Option Registration :=
  (registry.registrations.find? fun (known, _) => known = interface).map Prod.snd

def put (registry : Registry) (interface : Interface) (registration : Registration) : Registry :=
  { registry with registrations := putIn interface registration registry.registrations }

theorem find?_putIn (interface other : Interface) (registration : Registration)
    (entries : List (Interface × Registration)) :
    ((putIn interface registration entries).find? fun (known, _) => known = other).map Prod.snd =
      if interface = other then some registration
      else (entries.find? fun (known, _) => known = other).map Prod.snd := by
  induction entries with
  | nil => by_cases same : interface = other <;> simp [putIn, same]
  | cons entry rest ih =>
    obtain ⟨known, old⟩ := entry
    by_cases here : known = interface
    · subst here
      by_cases same : known = other <;> simp [putIn, same]
    · simp only [putIn, here, if_false]
      by_cases same : known = other
      · have apart : interface ≠ other := fun equal => here (same.trans equal.symm)
        simp [same, apart]
      · simpa [same] using ih

theorem find?_put (registry : Registry) (interface other : Interface)
    (registration : Registration) :
    (registry.put interface registration).find? other =
      if interface = other then some registration else registry.find? other :=
  find?_putIn interface other registration registry.registrations

def register (registry : Registry) (interface : Interface) (factory : Factory)
    (singleton : Bool) : Registry :=
  registry.put interface ⟨factory, singleton, none⟩

/-- A component as it is kept for later; one that is missing is not kept. -/
def keep (component : Component) : Option Component :=
  if component.isNull then none else some component

def registerInstance (registry : Registry) (interface : Interface) (component : Component) :
    Registry :=
  registry.put interface ⟨⟨none, .give component⟩, true, keep component⟩

def newId (registry : Registry) : Nat × Registry :=
  (registry.nextId, { registry with nextId := registry.nextId + 1 })

def reset (registry : Registry) : Registry :=
  { registry with
    registrations := registry.registrations.map fun (interface, registration) =>
      (interface, { registration with cached := none }) }

def interfaces (registry : Registry) : List Interface :=
  registry.registrations.map Prod.fst

def remember (registry : Registry) (interface : Interface) (component : Component) : Registry :=
  match registry.find? interface with
  | some registration =>
    if registration.singleton then
      registry.put interface { registration with cached := keep component }
    else registry
  | none => registry

/-- Follows a recipe, given how interfaces are resolved. -/
def follow (resolve : Registry → Interface → Resolution) : Recipe → Registry → Resolution
  | .give component, registry => ⟨.ok component, registry, []⟩
  | .fail label, registry => ⟨.error (.failed label), registry, []⟩
  | .fresh next, registry =>
    let (id, registry) := registry.newId
    follow resolve (next id) registry
  | .need interface next, registry =>
    let needed := resolve registry interface
    match needed.outcome with
    | .error error => ⟨.error error, needed.registry, needed.runs⟩
    | .ok component =>
      let rest := follow resolve (next component) needed.registry
      { rest with runs := needed.runs ++ rest.runs }

/-- Resolves an interface with factories nested no deeper than the given depth. -/
def resolveWithin : Nat → Registry → Interface → Resolution
  | 0, registry, interface => ⟨.error (.cyclic interface), registry, []⟩
  | depth + 1, registry, interface =>
    match registry.find? interface with
    | none => ⟨.error (.unregistered interface), registry, []⟩
    | some registration =>
      match registration.cached with
      | some component => ⟨.ok component, registry, []⟩
      | none =>
        let made := follow (resolveWithin depth) registration.factory.recipe registry
        { outcome := made.outcome
          registry :=
            match made.outcome with
            | .ok component => made.registry.remember interface component
            | .error _ => made.registry
          runs := ⟨interface, registration.factory.label⟩ :: made.runs }

/-- Resolves an interface. Factories that depend on each other without a cycle are nested no deeper
than there are registrations. -/
def resolve (registry : Registry) (interface : Interface) : Resolution :=
  resolveWithin (registry.registrations.length + 1) registry interface

end Registry

end Stencil
