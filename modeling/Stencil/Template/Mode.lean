import Stencil.Text.Lines

/-!
Match modes. A template is held against a text either as a whole, with all blanks levelled, or
line by line, with every template line searched for on its own.
-/

set_option autoImplicit false

namespace Stencil

inductive MatchMode where
  | whole
  | line
  deriving DecidableEq, Repr

namespace MatchMode

def name : MatchMode → String
  | whole => "whole"
  | line => "line"

def ofName? (text : String) : Option MatchMode :=
  if text = whole.name then some whole else if text = line.name then some line else none

theorem eq_name_of_ofName? {text : String} {mode : MatchMode} (known : ofName? text = some mode) :
    text = mode.name := by
  unfold ofName? at known
  split at known
  · cases known
    assumption
  · split at known
    · cases known
      assumption
    · cases known

/-- The text that a template is searched in: blanks collapsed in whole mode, kept in line mode, and
none at the ends. -/
def normalize (mode : MatchMode) (text : Text) : Text :=
  match mode with
  | whole => (Text.collapse text).trim
  | line => text.trim

/-- The stretches of a template that are searched for one by one: the whole template, or each of
its lines that is not blank. -/
def units (mode : MatchMode) (content : Text) : List Text :=
  match mode with
  | whole => [content.trim]
  | line => (content.lines.map Text.trim).filter (!·.isEmpty)

/-- How literal text of a template is looked for: in whole mode any run of blanks stands for one
space. -/
def level (mode : MatchMode) (literal : Text) : Text :=
  match mode with
  | whole => Text.collapse literal
  | line => literal

/-- Whether a captured value may run over this character: in line mode it stays within a row. -/
def crosses (mode : MatchMode) (c : Char) : Bool :=
  match mode with
  | whole => true
  | line => c != '\n'

end MatchMode

end Stencil
