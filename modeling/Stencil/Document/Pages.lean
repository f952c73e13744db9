import Stencil.Text.Blank

/-!
Paged documents. The text of a page is its lines, each with a line break; pages are joined by a line
break, so that the lines of two pages never run together.
-/

set_option autoImplicit false

namespace Stencil.Pages

def pageText (lines : List Text) : Text :=
  lines.flatMap (· ++ ['\n'])

def text (pages : List (List Text)) : Text :=
  List.intercalate ['\n'] (pages.map pageText)

end Stencil.Pages
