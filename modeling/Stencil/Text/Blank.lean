/-!
Texts, their blank characters, and the two ways of levelling blanks: cutting them off both ends,
and collapsing each run of them to one space.
-/

set_option autoImplicit false

namespace Stencil

/-- A text is a sequence of code points, so that lengths and positions count code points. -/
abbrev Text := List Char

namespace Text

/-- The code points that separate words, as inclusive ranges: the ASCII controls that move the
carriage or separate records, the spaces of every width, and the line and paragraph separators.
Zero-width characters are not among them. -/
def blankRanges : List (Nat × Nat) :=
  [(0x09, 0x0D), (0x1C, 0x20), (0x85, 0x85), (0xA0, 0xA0), (0x1680, 0x1680), (0x2000, 0x200A),
    (0x2028, 0x2029), (0x202F, 0x202F), (0x205F, 0x205F), (0x3000, 0x3000)]

def isBlank (c : Char) : Bool :=
  blankRanges.any fun (low, high) => low ≤ c.toNat && c.toNat ≤ high

def trimStart (text : Text) : Text :=
  text.dropWhile isBlank

def trimEnd (text : Text) : Text :=
  (text.reverse.dropWhile isBlank).reverse

def trim (text : Text) : Text :=
  trimEnd (trimStart text)

/-- Collapses each run of blanks to one space, for a text that follows a blank or does not: the
part of a run that continues the one before it leaves nothing. -/
def collapseAfter : Bool → Text → Text
  | _, [] => []
  | followsBlank, c :: rest =>
    if isBlank c then
      if followsBlank then collapseAfter true rest else ' ' :: collapseAfter true rest
    else c :: collapseAfter false rest

def collapse (text : Text) : Text :=
  collapseAfter false text

theorem isBlank_space : isBlank ' ' = true := by decide

end Text

end Stencil
