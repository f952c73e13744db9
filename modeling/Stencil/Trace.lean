import Stencil.Text.Blank

/-!
Traces. An operation that reads files or reports on itself yields, beside its outcome, the events on
the way: the files it asked for and the messages it left, in order.
-/

set_option autoImplicit false

namespace Stencil

inductive Level where
  | debug
  | info
  | warning
  | error
  deriving DecidableEq, Repr

def Level.name : Level → String
  | debug => "DEBUG"
  | info => "INFO"
  | warning => "WARNING"
  | error => "ERROR"

/-- How much a level weighs; a threshold lets through what weighs as much or more. -/
def Level.weight : Level → Nat
  | debug => 10
  | info => 20
  | warning => 30
  | error => 40

inductive Event where
  | read (path : String)
  | message (level : Level) (text : String)
  deriving DecidableEq, Repr

/-- The events of an operation, and its outcome. -/
structure Traced (Error Value : Type) where
  events : List Event
  outcome : Except Error Value

namespace Traced

variable {Error Value Result : Type}

def ok (value : Value) : Traced Error Value :=
  ⟨[], .ok value⟩

def fail (error : Error) : Traced Error Value :=
  ⟨[], .error error⟩

def ofExcept (outcome : Except Error Value) : Traced Error Value :=
  ⟨[], outcome⟩

def emit (event : Event) : Traced Error Unit :=
  ⟨[event], .ok ()⟩

def report (level : Level) (text : String) : Traced Error Unit :=
  emit (.message level text)

/-- Goes on after success. The events add up; after a failure nothing more happens. -/
def andThen (first : Traced Error Value) (next : Value → Traced Error Result) :
    Traced Error Result :=
  match first.outcome with
  | .ok value => ⟨first.events ++ (next value).events, (next value).outcome⟩
  | .error error => ⟨first.events, .error error⟩

instance : Monad (Traced Error) where
  pure := ok
  bind := andThen

def mapError {Other : Type} (wrap : Error → Other) (traced : Traced Error Value) :
    Traced Other Value :=
  ⟨traced.events,
    match traced.outcome with
    | .ok value => .ok value
    | .error error => .error (wrap error)⟩

def reads (traced : Traced Error Value) : List String :=
  traced.events.filterMap fun
    | .read path => some path
    | .message .. => none

/-- The messages that weigh at least the threshold, in order. -/
def messages (threshold : Nat) (traced : Traced Error Value) : List (Level × String) :=
  traced.events.filterMap fun
    | .read _ => none
    | .message level text => if threshold ≤ level.weight then some (level, text) else none

end Traced

end Stencil
