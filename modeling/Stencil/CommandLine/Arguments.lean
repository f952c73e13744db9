import Stencil.Template.Mode
import Stencil.Text.Digit

/-!
Command line arguments. The first names a command. Among the others stand one operand, the input
document, and options in any order. The name of an option may be cut short as long as it stays
unambiguous; its value follows an equals sign or is the next argument. After two hyphens there are
no more options.
-/

set_option autoImplicit false

namespace Stencil.CommandLine

inductive Command where
  | parse
  | rank
  deriving DecidableEq, Repr

inductive Flag where
  | help
  | template
  | directory
  | tryAll
  | mode
  deriving DecidableEq, Repr

def Flag.spellings : Flag → List String
  | help => ["-h", "--help"]
  | template => ["--template"]
  | directory => ["--templates-dir"]
  | tryAll => ["--all"]
  | mode => ["--mode"]

def Command.ofName? (name : String) : Option Command :=
  if name = "parse" then some .parse else if name = "rank" then some .rank else none

def Command.flags : Command → List Flag
  | parse => [.help, .template, .directory, .tryAll, .mode]
  | rank => [.help, .directory]

inductive Refusal where
  | noCommand
  | unknownCommand (name : String)
  | ambiguous (argument : String)
  | missingValue (flag : Flag)
  | unwantedValue (flag : Flag)
  | unknownMode (name : String)
  /-- A template and a directory of templates exclude each other. -/
  | bothSources
  | noInput
  /-- Some arguments are neither the input nor options of the command. -/
  | unrecognized
  deriving DecidableEq, Repr

/-- Why reading arguments ends before a request is complete. -/
inductive Stop where
  | help
  | refused (refusal : Refusal)
  deriving DecidableEq, Repr

inductive Word where
  | separator
  | operand (text : String)
  | flag (flag : Flag) (value : Option String)
  | unknownFlag
  deriving DecidableEq, Repr

/-- What stands before and after the first equals sign, if there is one. -/
def splitAtEquals (argument : Text) : Option (Text × Text) :=
  match argument.dropWhile (· != '=') with
  | [] => none
  | _ :: value => some (argument.takeWhile (· != '='), value)

def spelled (flags : List Flag) : List (Text × Flag) :=
  flags.flatMap fun flag => flag.spellings.map fun spelling => (spelling.toList, flag)

def named? (flags : List Flag) (spelling : Text) : Option Flag :=
  (spelled flags).lookup spelling

/-- Whether an option of a single letter stands although characters follow it: the same letter again
has no value attached, and characters that are no option come too late to matter. -/
def standsAlone (letter : Char) : Text → Bool
  | [] => true
  | c :: rest =>
    if c = letter then rest.head? != some '=' && standsAlone letter rest else c != '-'

/-- The options that an argument may abbreviate; behind a single hyphen, the one of that letter. -/
def abbreviated (flags : List Flag) (argument : Text) : List Word :=
  match argument with
  | '-' :: '-' :: _ =>
    let (start, value) :=
      match splitAtEquals argument with
      | some (start, value) => (start, some (String.ofList value))
      | none => (argument, none)
    ((spelled flags).filter fun (spelling, _) => start.isPrefixOf spelling).map fun (_, flag) =>
      .flag flag value
  | '-' :: letter :: value =>
    ((spelled flags).filter fun (spelling, _) => spelling = ['-', letter]).map
      fun (_, flag) => .flag flag (if standsAlone letter value then none else some (String.ofList value))
  | _ => []

/-- Reads one argument other than two hyphens. What begins with a hyphen is an option, except for
the hyphen itself, numbers, and texts with spaces that abbreviate no option. -/
def classify (flags : List Flag) (argument : String) : Except Refusal Word :=
  let text := argument.toList
  if text.head? != some '-' then .ok (.operand argument)
  else
    match named? flags text with
    | some flag => .ok (.flag flag none)
    | none =>
      if text = ['-'] then .ok (.operand argument)
      else
        let assigned := (splitAtEquals text).bind fun (spelling, value) =>
          (named? flags spelling).map fun flag => Word.flag flag (some (String.ofList value))
        match assigned, abbreviated flags text with
        | some word, _ => .ok word
        | none, [word] => .ok word
        | none, _ :: _ :: _ => .error (.ambiguous argument)
        | none, [] =>
          if Text.isNegativeNumber text || text.contains ' ' then .ok (.operand argument)
          else .ok .unknownFlag

/-- Reads arguments one by one; all after two hyphens are operands. -/
def classifyAll (flags : List Flag) : List String → Except Refusal (List Word)
  | [] => .ok []
  | argument :: rest =>
    if argument = "--" then .ok (.separator :: rest.map .operand)
    else do
      let word ← classify flags argument
      let words ← classifyAll flags rest
      return word :: words

structure Draft where
  input : Option String := none
  template : Option String := none
  directory : Option String := none
  tryAll : Bool := false
  mode : Option MatchMode := none
  /-- Whether there were arguments that no one asked for. -/
  excess : Bool := false
  deriving DecidableEq, Repr

namespace Draft

/-- Takes an operand: the first is the input. -/
def place (draft : Draft) (text : String) : Draft :=
  if draft.input.isNone then { draft with input := some text } else { draft with excess := true }

def placeAll (draft : Draft) (words : List Word) : Draft :=
  words.foldl
    (fun draft word =>
      match word with
      | .operand text => draft.place text
      | _ => { draft with excess := true })
    draft

/-- Takes the value of an option; the last one given counts. -/
def assign (draft : Draft) (flag : Flag) (value : String) : Except Stop Draft :=
  match flag with
  | .template =>
    if draft.directory.isSome then .error (.refused .bothSources)
    else .ok { draft with template := some value }
  | .directory =>
    if draft.template.isSome then .error (.refused .bothSources)
    else .ok { draft with directory := some value }
  | .mode =>
    match MatchMode.ofName? value with
    | some mode => .ok { draft with mode := some mode }
    | none => .error (.refused (.unknownMode value))
  | .help | .tryAll => .error (.refused (.unwantedValue flag))

def enable (draft : Draft) : Flag → Except Stop Draft
  | .help => .error .help
  | .tryAll => .ok { draft with tryAll := true }
  | flag => .error (.refused (.missingValue flag))

/-- Takes words in order. Two hyphens say nothing more right after the input or while it is still
missing. -/
def read : Draft → List Word → Except Stop Draft
  | draft, [] => .ok draft
  | draft, .separator :: rest =>
    .ok { draft.placeAll rest with
      excess := draft.input.isSome || (draft.placeAll rest).excess }
  | draft, .operand text :: .separator :: rest => .ok ((draft.place text).placeAll rest)
  | draft, .operand text :: rest => read (draft.place text) rest
  | draft, .unknownFlag :: rest => read { draft with excess := true } rest
  | draft, .flag flag (some value) :: rest => do
    let draft ← draft.assign flag value
    read draft rest
  | draft, .flag .template none :: .operand value :: rest => do
    let draft ← draft.assign .template value
    read draft rest
  | draft, .flag .directory none :: .operand value :: rest => do
    let draft ← draft.assign .directory value
    read draft rest
  | draft, .flag .mode none :: .operand value :: rest => do
    let draft ← draft.assign .mode value
    read draft rest
  | draft, .flag flag none :: rest => do
    let draft ← draft.enable flag
    read draft rest

end Draft

inductive Request where
  | parse (input : String) (template directory : Option String) (tryAll : Bool)
    (mode : Option MatchMode)
  | rank (input : String) (directory : Option String)
  deriving DecidableEq, Repr

def nonempty (path : Option String) : Option String :=
  path.filter (· != "")

def Draft.request (draft : Draft) (command : Command) : Except Stop Request :=
  match draft.input with
  | none => .error (.refused .noInput)
  | some input =>
    if draft.excess then .error (.refused .unrecognized)
    else
      match command with
      | .parse =>
        .ok (.parse input (nonempty draft.template) (nonempty draft.directory) draft.tryAll draft.mode)
      | .rank => .ok (.rank input (nonempty draft.directory))

def Command.request (command : Command) (arguments : List String) : Except Stop Request :=
  match classifyAll command.flags arguments with
  | .error refusal => .error (.refused refusal)
  | .ok words => do
    let draft ← Draft.read {} words
    draft.request command

/-- Reads a command line. An unknown option before the command spoils it, but help may still be
asked for after it. -/
def Request.ofArguments : List String → Except Stop Request
  | [] => .error (.refused .noCommand)
  | argument :: rest =>
    if argument = "--" then .error (.refused .noCommand)
    else
      match classify [.help] argument with
      | .error refusal => .error (.refused refusal)
      | .ok (.operand name) =>
        match Command.ofName? name with
        | some command => command.request rest
        | none => .error (.refused (.unknownCommand name))
      | .ok (.flag _ none) => .error .help
      | .ok (.flag flag (some _)) => .error (.refused (.unwantedValue flag))
      | .ok _ =>
        match ofArguments rest with
        | .ok _ => .error (.refused .unrecognized)
        | .error stop => .error stop

end Stencil.CommandLine
