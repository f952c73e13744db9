import Stencil.Text.Blank

/-!
Environment files. A line binds a name to a value, which may stand between quotes and then run over
several lines; a value may refer to other variables. A line that is no binding is left out.
-/

set_option autoImplicit false

namespace Stencil.Dotenv

/-- A binding as it is written: a name, and a value unless there is no equals sign. -/
structure Binding where
  name : Text
  value : Option Text
  deriving DecidableEq, Repr

def isNewline (c : Char) : Bool :=
  c = '\n' || c = '\r'

def isInlineBlank (c : Char) : Bool :=
  Text.isBlank c && !isNewline c

def inUnquotedName (c : Char) : Bool :=
  c != '=' && c != '#' && !Text.isBlank c

/-- Reads up to a closing quote: what stands before it, and what follows. A backslash before the
quote keeps it from closing, unless nothing else closes the text. -/
def closeQuote (quote : Char) : Text → Option (Text × Text)
  | [] => none
  | '\\' :: c :: rest =>
    if c = quote then
      match closeQuote quote rest with
      | some (inner, after) => some ('\\' :: c :: inner, after)
      | none => some (['\\'], rest)
    else (closeQuote quote (c :: rest)).map fun (inner, after) => ('\\' :: inner, after)
  | c :: rest =>
    if c = quote then some ([], rest)
    else (closeQuote quote rest).map fun (inner, after) => (c :: inner, after)

def doubleEscape? (c : Char) : Option Char :=
  match c with
  | '\\' => some '\\'
  | '\'' => some '\''
  | '"' => some '"'
  | 'a' => some '\x07'
  | 'b' => some '\x08'
  | 'f' => some '\x0c'
  | 'n' => some '\n'
  | 'r' => some '\r'
  | 't' => some '\t'
  | 'v' => some '\x0b'
  | _ => none

def singleEscape? (c : Char) : Option Char :=
  if c = '\\' || c = '\'' then some c else none

/-- Replaces escapes; a backslash that begins none stays. -/
def unescape (escape? : Char → Option Char) : Text → Text
  | [] => []
  | '\\' :: c :: rest =>
    match escape? c with
    | some plain => plain :: unescape escape? rest
    | none => '\\' :: unescape escape? (c :: rest)
  | c :: rest => c :: unescape escape? rest

/-- An unquoted value without its comment, which begins with a blank and a number sign. -/
def withoutComment : Text → Text
  | [] => []
  | c :: rest =>
    if Text.isBlank c && rest.head? = some '#' then [] else c :: withoutComment rest

def value? : Text → Option (Text × Text)
  | '\'' :: rest =>
    (closeQuote '\'' rest).map fun (inner, after) => (unescape singleEscape? inner, after)
  | '"' :: rest =>
    (closeQuote '"' rest).map fun (inner, after) => (unescape doubleEscape? inner, after)
  | text =>
    some (Text.trimEnd (withoutComment (text.takeWhile (!isNewline ·))),
      text.dropWhile (!isNewline ·))

/-- Reads a name; one between single quotes may hold anything else. A comment has none. -/
def name? : Text → Option (Option Text × Text)
  | '#' :: rest => some (none, '#' :: rest)
  | '\'' :: rest =>
    match rest.takeWhile (· != '\''), rest.dropWhile (· != '\'') with
    | c :: name, '\'' :: after => some (some (c :: name), after)
    | _, _ => none
  | text =>
    match text.takeWhile inUnquotedName with
    | [] => none
    | name => some (some name, text.dropWhile inUnquotedName)

def withoutExport (text : Text) : Text :=
  let word := "export".toList
  let after := text.drop word.length
  if word.isPrefixOf text && (after.head?.any isInlineBlank) then after.dropWhile isInlineBlank
  else text

/-- Passes over a comment and the end of the line, if nothing else stands there. -/
def endOfLine? (text : Text) : Option Text :=
  let blankless := text.dropWhile isInlineBlank
  let rest := if blankless.head? = some '#' then blankless.dropWhile (!isNewline ·) else blankless
  match rest with
  | [] => some []
  | '\r' :: '\n' :: after => some after
  | c :: after => if isNewline c then some after else none

def nextLine (text : Text) : Text :=
  match text.dropWhile (!isNewline ·) with
  | '\r' :: '\n' :: rest => rest
  | _ :: rest => rest
  | [] => []

/-- Reads the value of a binding, if an equals sign announces one, and what follows; where the
reading fails, the text from there on. -/
def assigned (text : Text) : Except Text (Option Text × Text) :=
  match text.dropWhile isInlineBlank with
  | '=' :: rest =>
    let start := rest.dropWhile isInlineBlank
    match value? start with
    | some (value, after) => .ok (some value, after)
    | none => .error start
  | after => .ok (none, after)

/-- Reads one statement: the binding that it makes, if any, and what follows its line. What is no
statement is passed over to the end of the line in which it fails. -/
def statement (text : Text) : Option Binding × Text :=
  let start := withoutExport text
  match name? start with
  | none => (none, nextLine start)
  | some (name, afterName) =>
    match assigned afterName with
    | .error failed => (none, nextLine failed)
    | .ok (value, afterValue) =>
      match endOfLine? afterValue with
      | none => (none, nextLine afterValue)
      | some after => (name.map fun name => ⟨name, value⟩, after)

/-- Reads statements one after the other, as many as the fuel allows. Every statement takes at least
one character, so the length of the text is fuel enough. -/
def bindingsWithin : Nat → Text → List Binding
  | 0, _ => []
  | fuel + 1, text =>
    let start := Text.trimStart text
    if start.isEmpty then []
    else
      let (binding, after) := statement start
      binding.toList ++ bindingsWithin fuel after

def bindings (text : Text) : List Binding :=
  bindingsWithin text.length text

/-- A reference to a variable after its dollar sign and opening brace: the name, the text to take
when there is no such variable, and what follows the closing brace. -/
def reference? (text : Text) : Option (Text × Text × Text) :=
  let name := text.takeWhile fun c => c != '\x7d' && c != ':'
  match text.dropWhile fun c => c != '\x7d' && c != ':' with
  | '\x7d' :: after => some (name, [], after)
  | ':' :: '-' :: rest =>
    match rest.dropWhile (· != '\x7d') with
    | _ :: after => some (name, rest.takeWhile (· != '\x7d'), after)
    | [] => none
  | _ => none

def expandWithin (lookup : Text → Option Text) : Nat → Text → Text
  | 0, text => text
  | _ + 1, [] => []
  | fuel + 1, '$' :: '\x7b' :: rest =>
    match reference? rest with
    | some (name, default, after) =>
      (lookup name).getD default ++ expandWithin lookup fuel after
    | none => '$' :: expandWithin lookup fuel ('\x7b' :: rest)
  | fuel + 1, c :: rest => c :: expandWithin lookup fuel rest

def expand (lookup : Text → Option Text) (text : Text) : Text :=
  expandWithin lookup text.length text

/-- The value of a variable among bindings, of which later ones count. -/
def valueAmong (bindings : List Binding) (name : Text) : Option Binding :=
  bindings.reverse.find? (·.name = name)

/-- Replaces the references in each value by what was bound before it, or else by what the
environment binds. -/
def resolve (environment : Text → Option Text) : List Binding → List Binding → List Binding
  | resolved, [] => resolved
  | resolved, binding :: rest =>
    let lookup (name : Text) : Option Text :=
      match valueAmong resolved name with
      | some known => some (known.value.getD [])
      | none => environment name
    resolve environment (resolved ++ [⟨binding.name, binding.value.map (expand lookup)⟩]) rest

def read (environment : Text → Option Text) (text : Text) : List Binding :=
  resolve environment [] (bindings text)

end Stencil.Dotenv
