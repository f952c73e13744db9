import Stencil.Number.Numeral
import Stencil.Template.Mode

/-!
Values of settings as they are given, and how they are read: texts stand for truth values, numbers
and modes, and whole numbers for truth values and numbers.
-/

set_option autoImplicit false

namespace Stencil

/-- A value as it is given, in the environment as text, by a caller as anything. -/
inductive GivenValue where
  | null
  | truth (value : Bool)
  | int (value : Int)
  | number (value : Binary64)
  | text (value : String)
  | compound
  deriving DecidableEq, Repr

inductive ValueError where
  | notText
  | notTruth
  | unreadableTruth
  | notNumber
  | unreadableNumber
  | notMode
  deriving DecidableEq, Repr

namespace ValueError

def kind : ValueError → String
  | notText => "string_type"
  | notTruth => "bool_type"
  | unreadableTruth => "bool_parsing"
  | notNumber => "float_type"
  | unreadableNumber => "float_parsing"
  | notMode => "enum"

def message : ValueError → String
  | notText => "Input should be a valid string"
  | notTruth => "Input should be a valid boolean"
  | unreadableTruth => "Input should be a valid boolean, unable to interpret input"
  | notNumber => "Input should be a valid number"
  | unreadableNumber =>
    "Input should be a valid number, unable to parse string as a number"
  | notMode => "Input should be 'whole' or 'line'"

end ValueError

namespace GivenValue

def trueWords : List String := ["1", "on", "t", "true", "y", "yes"]

def falseWords : List String := ["0", "off", "f", "false", "n", "no"]

/-- The truth value that a word stands for, in any letter case. -/
def truthOfWord (word : String) : Except ValueError Bool :=
  let word := String.ofList (word.toList.map Char.toLower)
  if trueWords.contains word then .ok true
  else if falseWords.contains word then .ok false
  else .error .unreadableTruth

/-- Whether a double is a whole number that fits 64 bits with its sign. -/
def isWhole : Binary64 → Bool
  | .finite _ units =>
    units % Binary64.unitsPerOne = 0 && units < Nat.pow 2 63 * Binary64.unitsPerOne
  | _ => false

def toTruth : GivenValue → Except ValueError Bool
  | truth value => .ok value
  | text word => truthOfWord word
  | int value =>
    if value = 0 then .ok false else if value = 1 then .ok true else .error .unreadableTruth
  | number value =>
    if value.position? = some 0 then .ok false
    else if value = .ofNat 1 then .ok true
    else if isWhole value then .error .unreadableTruth
    else .error .notTruth
  | null | compound => .error .notTruth

/-- Blanks that may stand around a numeral: all but the separators of records. -/
def isNumeralBlank (c : Char) : Bool :=
  Text.isBlank c && !(0x1C ≤ c.toNat && c.toNat ≤ 0x1F)

def numeralOf (text : Text) : Text :=
  ((text.dropWhile isNumeralBlank).reverse.dropWhile isNumeralBlank).reverse

def numberOfText (written : String) : Except ValueError Binary64 :=
  let ungrouped := (Numeral.ungrouped? written.toList).bind fun text => Numeral.read? (numeralOf text)
  match (Numeral.read? (numeralOf written.toList)).or ungrouped with
  | some value => .ok value
  | none => .error .unreadableNumber

def toNumber : GivenValue → Except ValueError Binary64
  | number value => .ok value
  | truth value => .ok (.ofNat value.toNat)
  | text written => numberOfText written
  | int value =>
    match Binary64.ofInt value with
    | .finite negative units => .ok (.finite negative units)
    | _ => .error .notNumber
  | null | compound => .error .notNumber

def toMode : GivenValue → Except ValueError MatchMode
  | text name =>
    match MatchMode.ofName? name with
    | some mode => .ok mode
    | none => .error .notMode
  | _ => .error .notMode

def toText : GivenValue → Except ValueError String
  | text value => .ok value
  | _ => .error .notText

end GivenValue

end Stencil
