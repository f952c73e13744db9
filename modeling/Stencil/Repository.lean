import Stencil.Files.System
import Stencil.Number.FixedPlaces
import Stencil.Similarity
import Stencil.Template.Mode

/-!
Template repositories. The templates of a directory are its entries; they can be ranked by how much
they resemble a text, and the one that resembles it most can be picked.
-/

set_option autoImplicit false

namespace Stencil

/-- Template text, the label under which it is known, and how it is to be matched. -/
structure Template where
  content : Text
  source : String
  mode : MatchMode
  deriving DecidableEq, Repr

structure Ranked where
  template : Template
  score : Binary64
  deriving DecidableEq, Repr

def Ranked.source (ranked : Ranked) : String :=
  ranked.template.source

def Ranked.note (ranked : Ranked) : Event :=
  .message .debug s!"Similarity {ranked.score.twoPlaces}: {ranked.source}"

namespace Ranked

/-- Best first; equal scores keep their order. -/
def descending (ranked : List Ranked) : List Ranked :=
  ranked.mergeSort fun first second => !first.score.lt second.score

/-- The score that a template has to exceed to be picked at all. -/
def floor : Binary64 := .ofInt (-1)

/-- The first of those with the highest score, when that is above the one to beat. -/
def bestAbove : Binary64 → List Ranked → Option Ranked
  | _, [] => none
  | score, ranked :: rest =>
    if score.lt ranked.score then some ((bestAbove ranked.score rest).getD ranked)
    else bestAbove score rest

def best (ranked : List Ranked) : Option Ranked :=
  bestAbove floor ranked

end Ranked

structure Repository where
  files : FileSystem
  scoring : Scoring
  mode : MatchMode

namespace Repository

/-- Reads one template. A mode that is not given is the repository's own. -/
def load (repository : Repository) (mode : Option MatchMode) (path : String) :
    Traced FileError Template := do
  let content ← repository.files.read path
  return ⟨content, path, mode.getD repository.mode⟩

/-- Reads templates one after the other, up to the first that cannot be read. -/
def loadAll (repository : Repository) (mode : Option MatchMode) :
    List String → Traced FileError (List Template)
  | [] => return []
  | path :: rest => do
    let template ← repository.load mode path
    let templates ← repository.loadAll mode rest
    return template :: templates

/-- Reads every entry of a directory as a template, in listing order. -/
def list (repository : Repository) (mode : Option MatchMode) (directory : String) :
    Traced FileError (List Template) := do
  let paths ← repository.files.entries directory
  let templates ← repository.loadAll mode paths
  Traced.report .info s!"Loaded {templates.length} templates from {directory}"
  return templates

def scored (repository : Repository) (mode : Option MatchMode) (directory : String) (text : Text) :
    Traced FileError (List Ranked) := do
  let templates ← repository.list mode directory
  let ranked := templates.map fun template =>
    (⟨template, repository.scoring text template.content⟩ : Ranked)
  ⟨ranked.map Ranked.note, .ok ranked⟩

def rank (repository : Repository) (mode : Option MatchMode) (directory : String) (text : Text) :
    Traced FileError (List Ranked) := do
  let ranked ← repository.scored mode directory text
  return Ranked.descending ranked

/-- The template of a directory that resembles a text most, if it has any. -/
def best (repository : Repository) (mode : Option MatchMode) (directory : String) (text : Text) :
    Traced FileError (Option Template) := do
  let ranked ← repository.scored mode directory text
  match Ranked.best ranked with
  | none => return none
  | some best =>
    Traced.report .info s!"Best template: {best.source} score={best.score.twoPlaces}"
    return some best.template

end Repository

end Stencil
