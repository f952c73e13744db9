import Stencil.Text.Encoding.Error

/-!
What can go wrong with files: they are not there, are not of the expected kind, may not be read, or
do not hold text in the expected encoding.
-/

set_option autoImplicit false

namespace Stencil

inductive FileError where
  | missing (path : String)
  | notADirectory (path : String)
  | isADirectory (path : String)
  | unknown (path : String)
  | denied (path : String)
  | unknownEncoding (name : String)
  | undecodable (error : DecodeError)
  /-- A file whose name promises a word processor document, but that is no archive as those are. -/
  | notArchived (path : String)
  /-- A file whose name promises a paged document that it does not hold. -/
  | notPaged (path : String)
  | notText (path : String)
  deriving DecidableEq, Repr

namespace FileError

/-- A system error: its number, what it means, and the quoted path. -/
def systemMessage (number : Nat) (meaning path : String) : String :=
  s!"[Errno {number}] {meaning}: " ++ String.ofList (Text.quoted path.toList)

def message : FileError → String
  | missing path => systemMessage 2 "No such file or directory" path
  | notADirectory path => systemMessage 20 "Not a directory" path
  | isADirectory path => systemMessage 21 "Is a directory" path
  | unknown path => path
  | denied path => path
  | unknownEncoding name => "unknown encoding: " ++ name
  | undecodable error => error.message
  | notArchived _ => "File is not a zip file"
  | notPaged _ => "Stream has ended unexpectedly"
  | notText path => "Not a text: " ++ String.ofList (Text.quoted path.toList)

end FileError

end Stencil
