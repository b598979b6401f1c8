import Folio.Text.Quoted
import Folio.Decimal.Layout

/-!
# Mismatches

How a document can fail to fit a type, where in the document, and the wording of both.
-/

namespace Folio.Decode

/-- What stood where something else was expected. -/
inductive Found
  | null
  | unitValue
  | bool (value : Bool)
  | int (value : Int)
  /-- A whole number that takes more than sixty-four bits. -/
  | wideInt (value : Int)
  /-- A fractional number, as it is shown. -/
  | float (text : String)
  | text (value : String)
  | sequence
  | map
  /-- A value with a tag of its own. -/
  | tagged
  deriving DecidableEq, Repr

/-- The wording of what was found. -/
def Found.message : Found → String
  | null => "null"
  | unitValue => "unit value"
  | bool value => "boolean `" ++ (if value then "true" else "false") ++ "`"
  | int value => "integer `" ++ Decimal.intText value ++ "`"
  | wideInt value =>
    "integer `" ++ Decimal.intText value ++ "` as " ++ (if value < 0 then "i128" else "u128")
  | float shown => "floating point `" ++ shown ++ "`"
  | text value => "string " ++ Text.inQuotes value
  | sequence => "sequence"
  | map => "map"
  | tagged => "enum"

/-- One way in which a document does not fit a type. -/
inductive Mismatch
  | invalidType (found : Found) (expected : String)
  | invalidValue (found : Found) (expected : String)
  | invalidLength (length : Nat) (expected : String)
  | unknownVariant (name : String) (variants : List String)
  | unknownField (name : String) (fields : List String)
  | missingField (name : String)
  | duplicateField (name : String)
  deriving DecidableEq, Repr

/-- Names in back quotes, as a choice. -/
def oneOf : List String → String
  | [] => "nothing"
  | [a] => "`" ++ a ++ "`"
  | [a, b] => "`" ++ a ++ "` or `" ++ b ++ "`"
  | names => "one of " ++ String.intercalate ", " (names.map fun a => "`" ++ a ++ "`")

/-- The wording of a mismatch. -/
def Mismatch.message : Mismatch → String
  | invalidType found expected => "invalid type: " ++ found.message ++ ", expected " ++ expected
  | invalidValue found expected => "invalid value: " ++ found.message ++ ", expected " ++ expected
  | invalidLength length expected => "invalid length " ++ Nat.repr length ++ ", expected " ++ expected
  | unknownVariant name variants => "unknown variant `" ++ name ++ "`, expected " ++ oneOf variants
  | unknownField name fields => "unknown field `" ++ name ++ "`, expected " ++ oneOf fields
  | missingField name => "missing field `" ++ name ++ "`"
  | duplicateField name => "duplicate field `" ++ name ++ "`"

/-- One step down into a document. -/
inductive Step
  | key (label : String)
  | item (index : Nat)
  deriving DecidableEq, Repr

/-- The wording of a place, the outermost step first: keys with points between them, indices in brackets. -/
def placeText : List Step → String
  | [] => ""
  | .key label :: rest => go label rest
  | .item index :: rest => go (".[" ++ Nat.repr index ++ "]") rest
where
  go (start : String) : List Step → String
    | [] => start
    | .key label :: rest => go (start ++ "." ++ label) rest
    | .item index :: rest => go (start ++ "[" ++ Nat.repr index ++ "]") rest

/-- Why a document could not be decoded. -/
inductive DecodeError
  /-- The document is not well formed, or no value at all could stand where this one stands. -/
  | malformed
  /-- The document does not fit, at a place. -/
  | mismatch (place : List Step) (cause : Mismatch)
  deriving DecidableEq, Repr

namespace DecodeError

/-- A mismatch at the place that is being looked at. -/
def here (cause : Mismatch) : DecodeError := mismatch [] cause

/-- The error as seen from one step further out. -/
def below (step : Step) : DecodeError → DecodeError
  | malformed => malformed
  | mismatch place cause => mismatch (step :: place) cause

/-- The wording of a mismatch without its place; none for a document that is not well formed. -/
def message? : DecodeError → Option String
  | malformed => none
  | mismatch _ cause => some cause.message

/-- The wording of a mismatch with its place before it; none for a document that is not well formed. -/
def placedMessage? : DecodeError → Option String
  | malformed => none
  | mismatch place cause =>
    let lead := placeText place
    some (if lead.isEmpty then cause.message else lead ++ ": " ++ cause.message)

end DecodeError

end Folio.Decode
