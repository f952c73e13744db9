import Stencil.Files.Error
import Stencil.Trace

/-!
File systems, as far as templates need them: a directory is listed, and a file is read as text.
-/

set_option autoImplicit false

namespace Stencil

structure FileSystem where
  /-- The paths of the entries of a directory, in a stable order. -/
  entries : String → Traced FileError (List String)
  contents : String → Except FileError Text

/-- Reads a file. That it was asked for shows in the events, whether it can be read or not. -/
def FileSystem.read (files : FileSystem) (path : String) : Traced FileError Text :=
  (Traced.emit (.read path)).andThen fun _ => .ofExcept (files.contents path)

end Stencil
