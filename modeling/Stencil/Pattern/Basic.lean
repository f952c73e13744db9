import Stencil.Template.Passage

/-!
Patterns. A pattern is a row of pieces: literal text, gaps that capture whatever stands there, and
optional text that is captured where it occurs. Capturing pieces are numbered from zero in order.
-/

set_option autoImplicit false

namespace Stencil

inductive Piece where
  | literal (text : Text)
  | gap
  | optional (text : Text)
  deriving DecidableEq, Repr

abbrev Pattern := List Piece

/-- Patterns with the names of their captures: capture `j` of pattern `i` is reported under name
`j` of list `i`. -/
structure Compiled where
  mode : MatchMode
  patterns : List Pattern
  names : List (List Text)
  deriving DecidableEq, Repr

/-- The pattern of a passage: its literal text, levelled, with a gap for each placeholder. -/
def Passage.pattern (mode : MatchMode) (passage : Passage) : Pattern :=
  .literal (mode.level passage.lead) ::
    passage.slots.flatMap fun slot => [.gap, .literal (mode.level slot.after)]

namespace Compiled

/-- Compiles a template. Malformed placeholders are literal text. -/
def ofTemplate (mode : MatchMode) (content : Text) : Compiled :=
  let passages := mode.passages content
  { mode
    patterns := passages.map (Passage.pattern mode)
    names := passages.map Passage.names }

/-- Names without repetition, in order of first occurrence. -/
def distinct : List Text → List Text
  | [] => []
  | name :: rest => name :: (distinct rest).filter (· != name)

/-- The placeholder names of a template, each once, in template order. -/
def placeholders (compiled : Compiled) : List Text :=
  distinct compiled.names.flatten

end Compiled

end Stencil
