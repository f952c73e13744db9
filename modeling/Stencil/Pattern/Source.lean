import Stencil.Pattern.Basic

/-!
The written form of patterns, in the notation of regular expressions: literal characters with a
backslash before those that have a meaning there, and a named group for each capture.
-/

set_option autoImplicit false

namespace Stencil.Pattern

/-- The characters that stand for themselves only behind a backslash. -/
def specialCharacters : List Char :=
  ['(', ')', '[', ']', '{', '}', '?', '*', '+', '-', '|', '^', '$', '\\', '.', '&', '~', '#', ' ',
    '\t', '\n', '\r', '\x0b', '\x0c']

def escapedChar (c : Char) : Text :=
  if specialCharacters.contains c then ['\\', c] else [c]

def escaped (literal : Text) : Text :=
  literal.flatMap escapedChar

/-- A group: its number in its name, and what it captures. -/
def group (number : Nat) (body : Text) : Text :=
  "(?P<_p".toList ++ (toString number).toList ++ '>' :: body ++ [')']

/-- The written form of the pieces from a given capture number on. -/
def sourceFrom : Nat → Pattern → Text
  | _, [] => []
  | number, .literal text :: rest => escaped text ++ sourceFrom number rest
  | number, .gap :: rest => group number ['.', '*'] ++ sourceFrom (number + 1) rest
  | number, .optional text :: rest =>
    group number (escaped text) ++ '?' :: sourceFrom (number + 1) rest

def source (pattern : Pattern) : Text :=
  sourceFrom 0 pattern

end Stencil.Pattern

namespace Stencil.MatchMode

/-- The option word that goes with a written pattern: set when a dot stands for every character. -/
def flags : MatchMode → Nat
  | whole => 16
  | line => 0

end Stencil.MatchMode
