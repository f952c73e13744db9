import Stencil.Text.Blank
import Stencil.Text.Printable

/-!
Quoted texts, as messages show them: between single quotes, or between double quotes when the text
has a single quote and no double one. Backslashes, the quote in use and unprintable characters are
escaped.
-/

set_option autoImplicit false

namespace Stencil.Text

/-- A number in base sixteen, in lower case, with zeros in front to fill the width. -/
def hexDigits : (width : Nat) → (value : Nat) → Text
  | 0, _ => []
  | width + 1, value => hexDigits width (value / 16) ++ [Nat.digitChar (value % 16)]

def quoteFor (text : Text) : Char :=
  if text.contains '\'' && !text.contains '"' then '"' else '\''

def quotedChar (quote c : Char) : Text :=
  if c = '\\' || c = quote then ['\\', c]
  else if c = '\n' then ['\\', 'n']
  else if c = '\r' then ['\\', 'r']
  else if c = '\t' then ['\\', 't']
  else if isPrintable c then [c]
  else if c.toNat < 0x100 then '\\' :: 'x' :: hexDigits 2 c.toNat
  else if c.toNat < 0x10000 then '\\' :: 'u' :: hexDigits 4 c.toNat
  else '\\' :: 'U' :: hexDigits 8 c.toNat

def quoted (text : Text) : Text :=
  let quote := quoteFor text
  quote :: text.flatMap (quotedChar quote) ++ [quote]

/-- A list of texts, quoted one by one, between brackets. -/
def quotedList (texts : List Text) : Text :=
  '[' :: List.intercalate [',', ' '] (texts.map quoted) ++ [']']

end Stencil.Text
