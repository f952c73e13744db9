import Stencil.Text.Blank

/-!
Markup tags inside captured values. A `<` opens a tag unless a blank follows it; the tag runs to
the next `>`, or to the end of the value when there is none.
-/

set_option autoImplicit false

namespace Stencil.Text

/-- Whether a `<` that stands before this text opens a tag. -/
def opensTag : Text → Bool
  | [] => true
  | c :: _ => !isBlank c

/-- What is left of a text when its tags go, reading on from inside a tag or outside one. -/
def withoutTagsFrom : Bool → Text → Text
  | _, [] => []
  | true, c :: rest => withoutTagsFrom (c != '>') rest
  | false, c :: rest =>
    if c = '<' && opensTag rest then withoutTagsFrom true rest else c :: withoutTagsFrom false rest

def withoutTags (text : Text) : Text :=
  withoutTagsFrom false text

/-- A captured value as it is reported: without tags, then without the blanks at its ends. -/
def clean (value : Text) : Text :=
  trim (withoutTags value)

end Stencil.Text
