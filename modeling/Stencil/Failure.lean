import Stencil.Extraction.Extract
import Stencil.Files.Error

/-!
What can go wrong when values are extracted: a template is malformed and may not be, a pattern has
fewer captures than names, or a file cannot be read.
-/

set_option autoImplicit false

namespace Stencil

inductive Failure where
  | malformed (source : String) (fragment : Text)
  | extraction (error : ExtractionError)
  | file (error : FileError)
  deriving DecidableEq, Repr

def malformedMessage (source : String) (fragment : Text) : String :=
  s!"Malformed placeholder in {source}: " ++ String.ofList (Text.quoted fragment)

def Failure.message : Failure → String
  | malformed source fragment => malformedMessage source fragment
  | extraction error => error.message
  | file error => error.message

end Stencil
