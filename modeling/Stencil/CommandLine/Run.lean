import Stencil.CommandLine.Arguments
import Stencil.Document.Loader
import Stencil.Json
import Stencil.Number.FixedPlaces
import Stencil.Registry.Wiring

/-!
Runs of the program: a command line, the environment and the files in, an exit code, printed text
and messages out.
-/

set_option autoImplicit false

namespace Stencil.CommandLine

/-- What a command leaves: an exit code and what it prints. -/
structure Answer where
  code : Nat
  output : Text
  deriving DecidableEq, Repr

def found : Nat := 0

def notFound : Nat := 1

/-- The exit code when a template is malformed and may not be. -/
def malformedTemplate : Nat := 2

/-- The extraction that a parse command asks for: with one template file, or with the templates of
a directory, with all of them when the settings or the command say so. -/
def extraction (settings : Settings) (disk : Disk) (text : Text) (template directory : Option String)
    (tryAll : Bool) (mode : Option MatchMode) : Traced Failure (Option Extraction) :=
  let extractor := settings.extractor disk
  match template with
  | some path => extractor.extractFile extractor.timeLimit.cutoff text path mode
  | none =>
    extractor.extractDirectory extractor.clock text (directory.getD settings.templatesPath)
      (settings.onlyBest && !tryAll) mode

/-- How an extraction is answered: with its values, or with a message and an exit code of its own
when there are none or a template is malformed. -/
def answer (extraction : Traced Failure (Option Extraction)) : Traced Failure Answer :=
  match extraction.outcome with
  | .ok (some found) =>
    ⟨extraction.events, .ok ⟨CommandLine.found, found.values.toJson ++ ['\n']⟩⟩
  | .ok none =>
    ⟨extraction.events ++ [.message .error "No template matched"], .ok ⟨notFound, []⟩⟩
  | .error (.malformed source fragment) =>
    ⟨extraction.events ++ [.message .error (malformedMessage source fragment)],
      .ok ⟨malformedTemplate, []⟩⟩
  | .error failure => ⟨extraction.events, .error failure⟩

/-- One line of a ranking: the score with two places in six columns, and the template. -/
def rankLine (ranked : Ranked) : Text :=
  (Binary64.padStart 6 ranked.score.twoPlaces ++ "  " ++ ranked.source ++ "\n").toList

def Request.paths (settings : Settings) : Request → List String
  | .parse input template directory _ _ =>
    [input, template.getD (directory.getD settings.templatesPath)]
  | .rank input directory => [input, directory.getD settings.templatesPath]

def execute (settings : Settings) (disk : Disk) : Request → Traced Failure Answer
  | .parse input template directory tryAll mode => do
    let text ← (disk.load settings.templateEncoding input).mapError .file
    answer (extraction settings disk text template directory tryAll mode)
  | .rank input directory => do
    let text ← (disk.load settings.templateEncoding input).mapError .file
    let repository := (settings.extractor disk).repository
    let ranked ←
      (repository.rank none (directory.getD settings.templatesPath) text).mapError .file
    return ⟨found, ranked.flatMap rankLine⟩

def thresholds : List (String × Nat) :=
  [("CRITICAL", 50), ("FATAL", 50), ("ERROR", 40), ("WARNING", 30), ("WARN", 30), ("INFO", 20),
    ("DEBUG", 10), ("NOTSET", 0)]

inductive Report where
  | invalidSettings (problems : List InvalidSetting)
  | unreadableSettings (error : FileError)
  | help
  | refused (refusal : Refusal)
  | unknownLevel (name : String)
  /-- The messages that pass the threshold, and how the command ended. -/
  | ran (log : List String) (outcome : Except Failure Answer)

/-- Carries out a request, with the messages that the settings let through. -/
def runRequest (settings : Settings) (disk : Disk) (request : Request) : Report :=
  match thresholds.lookup settings.logLevel with
  | none => .unknownLevel settings.logLevel
  | some threshold =>
    let traced : Traced Failure Answer := do
      Traced.report .debug "Container configured"
      execute settings disk request
    .ran ((traced.messages threshold).map Prod.snd) traced.outcome

def environmentPath : String := ".env"

def environmentFile (disk : Disk) : Except FileError (Option Text) :=
  let path := Path.ofString environmentPath
  match disk.content path with
  | .ok (.bytes _) => (disk.readText "utf-8" path).map some
  | _ => .ok none

/-- Settings and request of a run, or the report on why it comes to nothing. The settings have to be
valid even when the arguments are not. -/
def prepare (arguments : List String) (environment : List (String × String)) (disk : Disk) :
    Except Report (Settings × Request) :=
  match environmentFile disk with
  | .error error => .error (.unreadableSettings error)
  | .ok file =>
    match Settings.build ⟨[], environment, file⟩ with
    | .error problems => .error (.invalidSettings problems)
    | .ok settings =>
      match Request.ofArguments arguments with
      | .error .help => .error .help
      | .error (.refused refusal) => .error (.refused refusal)
      | .ok request => .ok (settings, request)

def run (arguments : List String) (environment : List (String × String)) (disk : Disk) : Report :=
  match prepare arguments environment disk with
  | .error report => report
  | .ok (settings, request) => runRequest settings disk request

def unknownLevelMessage (name : String) : String :=
  "Unknown level: " ++ String.ofList (Text.quoted name.toList)

def Report.code : Report → Nat
  | help => 0
  | refused _ => 2
  | ran _ (.ok answer) => answer.code
  | invalidSettings _ | unreadableSettings _ | unknownLevel _ | ran _ (.error _) => 1

end Stencil.CommandLine
