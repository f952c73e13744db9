import Stencil.Files.Memory
import Stencil.Number.Binary64
import Stencil.Template.Mode

/-!
Components that a registry hands out, and the interfaces under which it does. A component made anew
has an identity of its own; a plain value has none.
-/

set_option autoImplicit false

namespace Stencil

/-- The interfaces that the parts of the program are known under, and any other. -/
inductive Interface where
  | fileSystem
  | scoring
  | repository
  | extractor
  | documentLoader
  | other (name : String)
  deriving DecidableEq, Repr

def Interface.label : Interface → String
  | fileSystem => "textparser.core.protocols.file_system.FileSystemProtocol"
  | scoring => "textparser.core.strategies.similarity.SimilarityStrategy"
  | repository => "textparser.core.services.template_repository.TemplateRepository"
  | extractor => "textparser.core.services.parser_service.TextParser"
  | documentLoader =>
    "textparser.infrastructure.document_loaders.composite_loader.CompositeLoader"
  | other name => name

inductive FileSource where
  | disk (encoding : String)
  | memory (files : MemoryFiles)

inductive Component where
  | null
  | truth (value : Bool)
  | int (value : Int)
  | text (value : String)
  /-- An object that only has a label and perhaps holds another component. -/
  | labelled (id : Nat) (label : String) (inner : Component)
  | fileSystem (id : Nat) (source : FileSource)
  | scoring (id : Nat)
  | repository (id : Nat) (files scoring : Component) (mode : MatchMode)
  | extractor (id : Nat) (repository : Component) (mode : MatchMode) (strict : Bool)
    (timeLimit : Binary64)
  | documentLoader (id : Nat) (encoding : String)

namespace Component

def isNull : Component → Bool
  | null => true
  | _ => false

/-- Whether a component counts as one: missing, false, zero and empty values do not. -/
def isTruthy : Component → Bool
  | null => false
  | truth value => value
  | int value => value != 0
  | text value => value != ""
  | _ => true

end Component

end Stencil
