import Stencil.Extractor
import Stencil.Files.Disk
import Stencil.Registry.Basic
import Stencil.Settings.Basic

/-!
The parts of the program as components: which factories make them from settings, and how a component
is put to use.
-/

set_option autoImplicit false

namespace Stencil

namespace Recipe

def fileSystem (settings : Settings) : Recipe :=
  .fresh fun id => .give (.fileSystem id (.disk settings.templateEncoding))

def scoring : Recipe :=
  .fresh fun id => .give (.scoring id)

/-- Needs files and a scoring; a scoring that does not count as one is replaced by a new one. -/
def repository (settings : Settings) : Recipe :=
  .need .fileSystem fun files =>
    .need .scoring fun scoring =>
      .fresh fun id =>
        if scoring.isTruthy then .give (.repository id files scoring settings.mode)
        else .fresh fun other => .give (.repository id files (.scoring other) settings.mode)

def extractor (settings : Settings) : Recipe :=
  .need .repository fun repository =>
    .fresh fun id =>
      .give (.extractor id repository settings.mode settings.strict settings.timeLimit)

def documentLoader (settings : Settings) : Recipe :=
  .fresh fun id => .give (.documentLoader id settings.templateEncoding)

end Recipe

namespace Registry

/-- Registers the parts of the program, made from settings, each to be made once. -/
def configure (registry : Registry) (settings : Settings) : Registry :=
  let wire (registry : Registry) (interface : Interface) (recipe : Recipe) : Registry :=
    registry.register interface ⟨none, recipe⟩ true
  let registry := wire registry .fileSystem (Recipe.fileSystem settings)
  let registry := wire registry .scoring Recipe.scoring
  let registry := wire registry .repository (Recipe.repository settings)
  let registry := wire registry .extractor (Recipe.extractor settings)
  wire registry .documentLoader (Recipe.documentLoader settings)

end Registry

namespace Component

def toFileSystem? (disk : Disk) : Component → Option FileSystem
  | .fileSystem _ (.disk encoding) => some (disk.fileSystem encoding)
  | .fileSystem _ (.memory files) => some files.fileSystem
  | _ => none

def toScoring? : Component → Option Scoring
  | .scoring _ => some Similarity.score
  | _ => none

def toRepository? (disk : Disk) : Component → Option Repository
  | .repository _ files scorer mode => do
    return ⟨← files.toFileSystem? disk, ← scorer.toScoring?, mode⟩
  | _ => none

def toExtractor? (disk : Disk) : Component → Option Extractor
  | .extractor _ holder mode strict timeLimit => do
    return ⟨← holder.toRepository? disk, mode, strict, some timeLimit⟩
  | _ => none

end Component

namespace Settings

/-- The extractor that the parts made from settings add up to, for a given disk. -/
def extractor (settings : Settings) (disk : Disk) : Extractor where
  repository := ⟨disk.fileSystem settings.templateEncoding, Similarity.score, settings.mode⟩
  mode := settings.mode
  strict := settings.strict
  timeLimit := some settings.timeLimit

/-- The extractor of the parts is the one that a registry hands out right after configuration. -/
theorem resolve_extractor (settings : Settings) (disk : Disk) :
    ((Registry.empty.configure settings).resolve .extractor).outcome.toOption.bind
      (Component.toExtractor? disk) = some (settings.extractor disk) := by
  simp [Registry.resolve, Registry.resolveWithin, Registry.configure, Registry.register,
    Registry.put, Registry.putIn, Registry.empty, Registry.find?, Registry.follow, Registry.newId,
    Registry.remember, Registry.keep, Recipe.extractor, Recipe.repository, Recipe.fileSystem,
    Recipe.scoring, Component.isNull, Component.isTruthy, Component.toExtractor?,
    Component.toRepository?, Component.toFileSystem?, Component.toScoring?, Except.toOption,
    Settings.extractor]

end Settings

end Stencil
