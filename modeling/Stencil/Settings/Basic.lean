import Stencil.Settings.Dotenv
import Stencil.Settings.Value
import Stencil.Text.LetterCase

/-!
Settings, put together from what a caller passes, from environment variables and from an environment
file. The first of these that gives a value counts; what it gives has to be usable.
-/

set_option autoImplicit false

namespace Stencil

structure Settings where
  templatesPath : String
  templateEncoding : String
  mode : MatchMode
  onlyBest : Bool
  strict : Bool
  timeLimit : Binary64
  logLevel : String
  deriving DecidableEq, Repr

structure InvalidSetting where
  field : String
  error : ValueError
  deriving DecidableEq, Repr

namespace Settings

def defaults : Settings where
  templatesPath := "./templates"
  templateEncoding := "utf-8"
  mode := .whole
  onlyBest := true
  strict := false
  timeLimit := .ofNat 5
  logLevel := "INFO"

/-- The names of the fields, as callers and environments know them. -/
def fields : List String :=
  ["templates_path", "template_encoding", "match_mode", "find_matching_template",
    "strict_placeholders", "match_timeout", "log_level"]

structure Sources where
  arguments : List (String × GivenValue)
  environment : List (String × String)
  file : Option Text

/-- What the name of a variable begins with, in any letter case. -/
def variableStart : String := "textparser_"

def namesField (field : String) (name : Text) : Bool :=
  Text.toAsciiLowerCase name = (variableStart ++ field).toList

namespace Sources

def argument? (sources : Sources) (field : String) : Option GivenValue :=
  (sources.arguments.reverse.find? fun (name, _) => name = field).map Prod.snd

def variableValue? (sources : Sources) (field : String) : Option GivenValue :=
  (sources.environment.reverse.find? fun (name, _) => namesField field name.toList).map
    fun (_, value) => .text value

def environmentValue (sources : Sources) (name : Text) : Option Text :=
  (sources.environment.lookup (String.ofList name)).map String.toList

/-- The names that an environment file binds, each once, in order of their first binding. -/
def boundNames (bindings : List Dotenv.Binding) : List Text :=
  bindings.foldl
    (fun names binding => if names.contains binding.name then names else names ++ [binding.name]) []

/-- The value that an environment file gives a field: of names that differ in letter case the one
bound last for the first time counts, with its last value. -/
def fileValue? (sources : Sources) (field : String) : Option GivenValue :=
  let bindings := Dotenv.read sources.environmentValue (sources.file.getD [])
  match (boundNames bindings).reverse.find? (namesField field) with
  | none => none
  | some name =>
    (Dotenv.valueAmong bindings name).bind fun binding =>
      binding.value.map fun value => .text (String.ofList value)

def value? (sources : Sources) (field : String) : Option GivenValue :=
  ((sources.argument? field).or (sources.variableValue? field)).or (sources.fileValue? field)

/-- Reads a field, or takes what it has when nothing is given. -/
def read {Value : Type} (sources : Sources) (field : String)
    (convert : GivenValue → Except ValueError Value) (default : Value) :
    Except InvalidSetting Value :=
  match sources.value? field with
  | none => .ok default
  | some given =>
    match convert given with
    | .ok value => .ok value
    | .error error => .error ⟨field, error⟩

end Sources

def upperCased (given : GivenValue) : Except ValueError String :=
  given.toText.map fun text => String.ofList (Text.toUpperCase text.toList)

def problem {Value : Type} : Except InvalidSetting Value → List InvalidSetting
  | .ok _ => []
  | .error invalid => [invalid]

/-- Settings from their sources, or all settings that are invalid, in the order of their names. -/
def build (sources : Sources) : Except (List InvalidSetting) Settings :=
  let onlyBest := sources.read "find_matching_template" GivenValue.toTruth defaults.onlyBest
  let logLevel := sources.read "log_level" upperCased defaults.logLevel
  let mode := sources.read "match_mode" GivenValue.toMode defaults.mode
  let timeLimit := sources.read "match_timeout" GivenValue.toNumber defaults.timeLimit
  let strict := sources.read "strict_placeholders" GivenValue.toTruth defaults.strict
  let encoding := sources.read "template_encoding" GivenValue.toText defaults.templateEncoding
  let path := sources.read "templates_path" GivenValue.toText defaults.templatesPath
  match onlyBest, logLevel, mode, timeLimit, strict, encoding, path with
  | .ok onlyBest, .ok logLevel, .ok mode, .ok timeLimit, .ok strict, .ok encoding, .ok path =>
    .ok ⟨path, encoding, mode, onlyBest, strict, timeLimit, logLevel⟩
  | onlyBest, logLevel, mode, timeLimit, strict, encoding, path =>
    .error (problem onlyBest ++ problem logLevel ++ problem mode ++ problem timeLimit ++
      problem strict ++ problem encoding ++ problem path)

end Settings

end Stencil
