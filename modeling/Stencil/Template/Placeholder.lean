import Stencil.Text.Blank

/-!
Placeholders of a template. A placeholder is a name between `{%` and `%}`, with spaces and tabs
around it that do not belong to it. The name does not begin with a blank and holds neither a
percent sign nor a line feed.
-/

set_option autoImplicit false

namespace Stencil.Placeholder

/-- Padding that may stand between a delimiter and the name. -/
def isPadding (c : Char) : Bool :=
  c = ' ' || c = '\t'

def inName (c : Char) : Bool :=
  c != '%' && c != '\n'

def unpadded (name : Text) : Text :=
  (name.reverse.dropWhile isPadding).reverse

/-- Reads a name and the closing delimiter behind it: the name, and the text after both. -/
def closing? (body : Text) : Option (Text × Text) :=
  match body.takeWhile inName, body.dropWhile inName with
  | c :: name, '%' :: '}' :: rest =>
    if Text.isBlank c then none else some (unpadded (c :: name), rest)
  | _, _ => none

/-- Reads the placeholder at the very start of a text: its name, and the text after it. -/
def read? : Text → Option (Text × Text)
  | '{' :: '%' :: rest => closing? (rest.dropWhile isPadding)
  | _ => none

theorem closing?_shorter {body name rest : Text} (found : closing? body = some (name, rest)) :
    rest.length < body.length := by
  have short : (body.dropWhile inName).length ≤ body.length := (List.dropWhile_suffix inName).length_le
  unfold closing? at found
  split at found
  · rename_i tail _ after
    rw [after] at short
    split at found
    · simp at found
    · simp only [Option.some.injEq, Prod.mk.injEq] at found
      simp only [List.length_cons, ← found.2] at short ⊢
      omega
  · simp at found

theorem read?_shorter {text name rest : Text} (found : read? text = some (name, rest)) :
    rest.length < text.length := by
  unfold read? at found
  split at found
  · rename_i body
    have short : (body.dropWhile isPadding).length ≤ body.length :=
      (List.dropWhile_suffix isPadding).length_le
    have shorter := closing?_shorter found
    simp only [List.length_cons]
    omega
  · simp at found

end Stencil.Placeholder
