import Stencil.Template.Mode
import Stencil.Template.Placeholder

/-!
Passages. A passage is a stretch of template text taken apart: literal text, and placeholders each
followed by literal text. Delimiters that belong to no placeholder stay in the literal text, where
they are reported.
-/

set_option autoImplicit false

namespace Stencil

structure Slot where
  name : Text
  after : Text
  deriving DecidableEq, Repr

/-- Literal text, then placeholders each followed by literal text. -/
structure Passage where
  lead : Text
  slots : List Slot
  deriving DecidableEq, Repr

namespace Passage

def push (c : Char) (passage : Passage) : Passage :=
  { passage with lead := c :: passage.lead }

/-- Takes a text apart, reading placeholders from left to right. -/
def ofText (text : Text) : Passage :=
  match text with
  | [] => ⟨[], []⟩
  | c :: rest =>
    match _found : Placeholder.read? (c :: rest) with
    | some (name, after) =>
      let passage := ofText after
      ⟨[], ⟨name, passage.lead⟩ :: passage.slots⟩
    | none => (ofText rest).push c
termination_by text.length
decreasing_by
  · exact Placeholder.read?_shorter _found
  · simp

def names (passage : Passage) : List Text :=
  passage.slots.map Slot.name

/-- The stretches of literal text: before, between and after the placeholders. -/
def literals (passage : Passage) : List Text :=
  passage.lead :: passage.slots.map Slot.after

end Passage

def MatchMode.passages (mode : MatchMode) (content : Text) : List Passage :=
  (mode.units content).map Passage.ofText

/-- What follows in a text from its first placeholder delimiter on. -/
def Placeholder.fromDelimiter? : Text → Option Text
  | [] => none
  | '{' :: '%' :: rest => some ('{' :: '%' :: rest)
  | '%' :: '}' :: rest => some ('%' :: '}' :: rest)
  | _ :: rest => fromDelimiter? rest

def Placeholder.snippetLength : Nat := 40

/-- The stray delimiters of literal text, as they are shown: from the first one on. -/
def Placeholder.malformed? (literal : Text) : Option Text :=
  (fromDelimiter? literal).map (·.take snippetLength)

/-- What is malformed in a template: one snippet for each stretch of literal text that holds a
delimiter, in order. -/
def MatchMode.malformed (mode : MatchMode) (content : Text) : List Text :=
  (mode.passages content).flatMap fun passage => passage.literals.filterMap Placeholder.malformed?

end Stencil
