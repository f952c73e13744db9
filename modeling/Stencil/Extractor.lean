import Stencil.Pattern.Compile
import Stencil.Repository

/-!
Extractors: the ways to extract values from a text, with a template given as text, with a template
file, and with the templates of a directory.
-/

set_option autoImplicit false

namespace Stencil

/-- How long each search may take, in seconds. No limit, and a negative one, let every search
finish. -/
abbrev TimeLimit := Option Binary64

/-- Which searches a limit cuts short: all of them when it is less than the millionth of a second
that clocks can tell, and none that end in time. -/
def TimeLimit.cutoff : TimeLimit → Cutoff
  | some (.finite negative units) =>
    if units = 0 || (!negative && units * 1000000 < Binary64.unitsPerOne) then .always else .never
  | _ => .never

/-- Which searches are cut short, for each template by its position among those that are tried. -/
abbrev Clock := Nat → Cutoff

structure Extractor where
  repository : Repository
  mode : MatchMode
  strict : Bool
  timeLimit : TimeLimit

namespace Extractor

def clock (extractor : Extractor) : Clock :=
  fun _ => extractor.timeLimit.cutoff

def outcomeNote (source : String) : Option Extraction → Event
  | none => .message .debug s!"No placeholder values captured with {source}"
  | some extraction => .message .info s!"Matched {source}: {extraction.values.size} values"

/-- Extracts with a template given as text. A mode that is not given is the extractor's own. -/
def extractText (extractor : Extractor) (cutoff : Cutoff) (text content : Text)
    (mode : Option MatchMode) (source : String) : Traced Failure (Option Extraction) := do
  let mode := mode.getD extractor.mode
  let compiled ← Compiled.compile mode extractor.strict source content
  let extraction ← (Traced.ofExcept
    (compiled.extract cutoff source (mode.normalize text))).mapError .extraction
  Traced.emit (outcomeNote source extraction)
  return extraction

/-- Extracts with a template, in the template's own mode. -/
def extractTemplate (extractor : Extractor) (cutoff : Cutoff) (text : Text) (template : Template) :
    Traced Failure (Option Extraction) :=
  extractor.extractText cutoff text template.content (some template.mode) template.source

def extractFile (extractor : Extractor) (cutoff : Cutoff) (text : Text) (path : String)
    (mode : Option MatchMode) : Traced Failure (Option Extraction) := do
  let template ←
    (extractor.repository.load (some (mode.getD extractor.mode)) path).mapError .file
  extractor.extractTemplate cutoff text template

/-- Tries templates in order, up to the first that yields values or fails. -/
def firstOf (extractor : Extractor) (text : Text) :
    Clock → List Template → Traced Failure (Option Extraction)
  | _, [] => return none
  | clock, template :: rest => do
    match ← extractor.extractTemplate (clock 0) text template with
    | some extraction => return some extraction
    | none => extractor.firstOf text (fun position => clock (position + 1)) rest

/-- The templates of a directory that are tried: the one that resembles the text most, or all. -/
def candidates (extractor : Extractor) (text : Text) (directory : String) (onlyBest : Bool)
    (mode : MatchMode) : Traced FileError (List Template) :=
  if onlyBest then do
    let best ← extractor.repository.best (some mode) directory text
    return best.toList
  else extractor.repository.list (some mode) directory

/-- Extracts with the templates of a directory: with the one that resembles the text most, or with
the first in listing order that yields values. -/
def extractDirectory (extractor : Extractor) (clock : Clock) (text : Text) (directory : String)
    (onlyBest : Bool) (mode : Option MatchMode) : Traced Failure (Option Extraction) := do
  let templates ←
    (extractor.candidates text directory onlyBest (mode.getD extractor.mode)).mapError .file
  match ← extractor.firstOf text clock templates with
  | some extraction => return some extraction
  | none =>
    Traced.report .info s!"No template in {directory} matched"
    return none

end Extractor

end Stencil
