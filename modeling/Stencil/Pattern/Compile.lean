import Stencil.Failure
import Stencil.Pattern.Source
import Stencil.Trace

/-!
Compiling templates with reports. A malformed placeholder is an error under strict compilation; else
it is literal text, and a warning says so.
-/

set_option autoImplicit false

namespace Stencil.Compiled

def sources (compiled : Compiled) : List Text :=
  compiled.patterns.map Pattern.source

def malformedWarning (source : String) (fragment : Text) : Event :=
  .message .warning (malformedMessage source fragment ++ " will be matched literally")

def compiledNote (compiled : Compiled) (source : String) : Event :=
  let sources := String.ofList (Text.quotedList compiled.sources)
  .message .debug s!"Compiled {source} ({compiled.mode.name}): {sources}"

def compile (mode : MatchMode) (strict : Bool) (source : String) (content : Text) :
    Traced Failure Compiled :=
  let malformed := mode.malformed content
  let compiled := ofTemplate mode content
  match if strict then malformed.head? else none with
  | some fragment => .fail (.malformed source fragment)
  | none =>
    { events := malformed.map (malformedWarning source) ++ [compiled.compiledNote source]
      outcome := .ok compiled }

end Stencil.Compiled
