import Stencil.Text.LetterCase

/-!
File paths. A path is a root and the names below it; empty names and single points in its written
form say nothing, and two points stay as they are.
-/

set_option autoImplicit false

namespace Stencil

structure Path where
  root : String
  parts : List String
  deriving DecidableEq, Repr

namespace Path

/-- The stretches of a text between the places where a character stands. -/
def splitAt (separator : Char) : Text → List Text
  | [] => [[]]
  | c :: rest =>
    if c = separator then [] :: splitAt separator rest
    else
      match splitAt separator rest with
      | [] => [[c]]
      | first :: later => (c :: first) :: later

/-- The root in a written path: none, one slash, or two when there are exactly two. -/
def rootOf (written : Text) : String :=
  match (written.takeWhile (· = '/')).length with
  | 0 => ""
  | 2 => "//"
  | _ => "/"

def ofString (written : String) : Path :=
  let text := written.toList
  { root := rootOf text
    parts := ((splitAt '/' text).map String.ofList).filter fun part => part != "" && part != "." }

def toString (path : Path) : String :=
  let written := path.root ++ String.intercalate "/" path.parts
  if written = "" then "." else written

def child (path : Path) (name : String) : Path :=
  { path with parts := path.parts ++ [name] }

/-- The last name of a path, empty for a bare root. -/
def name (path : Path) : Text :=
  (path.parts.getLast?.getD "").toList

/-- The end of a name from its last point on, unless that point is its first or last character. -/
def suffix (path : Path) : Text :=
  let afterPoint := (path.name.reverse.takeWhile (· != '.')).reverse
  let before := path.name.length - afterPoint.length
  if before ≤ 1 || afterPoint.isEmpty then [] else '.' :: afterPoint

def hasSuffix (path : Path) (suffixes : List String) : Bool :=
  suffixes.any fun suffix => Text.toAsciiLowerCase path.suffix = suffix.toList

end Path

end Stencil
