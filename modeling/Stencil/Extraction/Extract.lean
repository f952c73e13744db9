import Stencil.Extraction.Bindings
import Stencil.Pattern.Search
import Stencil.Text.Markup

/-!
Extraction. Each pattern is searched for in the whole text on its own; the captures of those that
match are reported under their names, in the order of patterns and then of captures.
-/

set_option autoImplicit false

namespace Stencil

inductive ExtractionError where
  | noSuchGroup
  deriving DecidableEq, Repr

def ExtractionError.message : ExtractionError → String
  | noSuchGroup => "no such group"

/-- Which searches are given up, by the position of their pattern. A search that is given up counts
as one that found nothing. The warning about it is left out of all traces, since whether there is one
is up to the clock. -/
abbrev Cutoff := Nat → Bool

def Cutoff.never : Cutoff := fun _ => false

def Cutoff.always : Cutoff := fun _ => true

/-- Reports captures under names. A capture that took no part leaves its name as it was. -/
def Bindings.record : Bindings → List Text → Pattern.Captures → Except ExtractionError Bindings
  | bindings, [], _ => .ok bindings
  | _, _ :: _, [] => .error .noSuchGroup
  | bindings, name :: names, capture :: captures =>
    match capture with
    | some value => (bindings.bind name (Text.clean value)).record names captures
    | none => bindings.record names captures

namespace Compiled

/-- Searches for patterns one after the other and reports what they capture. -/
def collect (mode : MatchMode) (text : Text) :
    Cutoff → List (Pattern × List Text) → Bindings → Except ExtractionError Bindings
  | _, [], bindings => .ok bindings
  | cutoff, (pattern, names) :: rest, bindings =>
    match if cutoff 0 then none else pattern.search? mode text with
    | none => collect mode text (fun index => cutoff (index + 1)) rest bindings
    | some captures =>
      match bindings.record names captures with
      | .ok bindings => collect mode text (fun index => cutoff (index + 1)) rest bindings
      | .error error => .error error

/-- The values that the patterns capture in a text, or nothing when no value was captured. A pattern
without a list of names, or a list without a pattern, is left out. -/
def extract (compiled : Compiled) (cutoff : Cutoff) (source : String) (text : Text) :
    Except ExtractionError (Option Extraction) :=
  match collect compiled.mode text cutoff (compiled.patterns.zip compiled.names) .empty with
  | .ok bindings => .ok (if bindings.isEmpty then none else some ⟨bindings, source⟩)
  | .error error => .error error

end Compiled

end Stencil
