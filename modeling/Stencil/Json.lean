import Stencil.Extraction.Bindings
import Stencil.Text.Quoted

/-!
Values as a JSON object, one name to a line. Quotes, backslashes and the controls below the space
are escaped; all other characters stand for themselves.
-/

set_option autoImplicit false

namespace Stencil.Json

/-- The letters of the controls that have one, after a backslash. -/
def controlLetters : List (Char × Char) :=
  [('\n', 'n'), ('\r', 'r'), ('\t', 't'), ('\x08', 'b'), ('\x0c', 'f')]

def escaped (c : Char) : Text :=
  if c = '"' || c = '\\' then ['\\', c]
  else
    match controlLetters.lookup c with
    | some letter => ['\\', letter]
    | none => if c.toNat < 0x20 then '\\' :: 'u' :: Text.hexDigits 4 c.toNat else [c]

def string (text : Text) : Text :=
  '"' :: text.flatMap escaped ++ ['"']

def member (name value : Text) : Text :=
  "\n  ".toList ++ string name ++ ": ".toList ++ string value

def object (members : List (Text × Text)) : Text :=
  if members.isEmpty then "\x7b\x7d".toList
  else
    '\x7b' :: List.intercalate [','] (members.map fun (name, value) => member name value)
      ++ "\n\x7d".toList

end Stencil.Json

namespace Stencil

def Bindings.toJson (bindings : Bindings) : Text :=
  Json.object bindings.pairs

end Stencil
