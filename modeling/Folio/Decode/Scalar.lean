import Folio.Decode.Mismatch
import Folio.Data

/-!
# Scalars

A scalar of a configuration document is a spelling, and what it means depends on what is expected of it: a text takes
the spelling as it is, any other type reads it. The reading follows the core schema: null, truth values, whole numbers
in four bases, fractional numbers, and text for everything else.
-/

namespace Folio.Decode

/-- How a scalar is written. -/
inductive Style
  | plain
  | quoted
  | literal
  | folded
  deriving DecidableEq, Repr, Inhabited

/-- A scalar as it is written, with its tag if it has one. -/
structure Scalar where
  spelling : String
  style : Style := .plain
  tag : Option String := none
  deriving DecidableEq, Repr, Inhabited

namespace Scalar

/-- The tag of a type of the core schema. -/
def coreTag (type : String) : String := "tag:yaml.org,2002:" ++ type

/-- What an untagged plain spelling stands for. -/
inductive Meaning
  | null
  | bool (value : Bool)
  | int (value : Int)
  | float (value : Float)
  | text (value : String)

/-- The spelling of nothing. -/
def isNullText (s : String) : Bool :=
  s = "null" || s = "Null" || s = "NULL" || s = "~"

/-- The truth value of a spelling. -/
def bool? (s : String) : Option Bool :=
  if s = "true" || s = "True" || s = "TRUE" then some true
  else if s = "false" || s = "False" || s = "FALSE" then some false
  else none

/-- The value of a digit in any base up to sixteen. -/
def digit? (c : Char) : Option Nat :=
  if '0' ≤ c && c ≤ '9' then some (c.toNat - '0'.toNat)
  else if 'a' ≤ c && c ≤ 'f' then some (c.toNat - 'a'.toNat + 10)
  else if 'A' ≤ c && c ≤ 'F' then some (c.toNat - 'A'.toNat + 10)
  else none

/-- The value of a row of digits in a base; none of an empty row. -/
def digits? (base : Nat) (cs : List Char) : Option Nat :=
  if cs.isEmpty then none
  else cs.foldl (fun n? c => do
    let n ← n?
    let d ← digit? c
    if d < base then some (n * base + d) else none) (some 0)

/-- Digits with a leading zero: such a spelling is text. -/
def hasLeadingZero (cs : List Char) : Bool :=
  let unsigned := match cs with
    | '-' :: rest => rest
    | '+' :: rest => rest
    | _ => cs
  unsigned.length > 1 && unsigned.head? = some '0' && unsigned.tail.all Char.isDigit

/-- The magnitude of digits with the mark of their base before them. -/
def based? : List Char → Option Nat
  | '0' :: 'x' :: rest => digits? 16 rest
  | '0' :: 'o' :: rest => digits? 8 rest
  | '0' :: 'b' :: rest => digits? 2 rest
  | _ => none

/-- The whole number of a spelling: an optional sign and digits, in base sixteen, eight or two behind `0x`, `0o` or
`0b`. -/
def int? (cs : List Char) : Option Int :=
  match cs with
  | '-' :: rest =>
    match based? rest with
    | some n => some (-n)
    | none => if hasLeadingZero cs then none else (digits? 10 rest).map fun n => -(n : Int)
  | _ =>
    let unsigned := match cs with
      | '+' :: rest => rest
      | _ => cs
    match based? unsigned with
    | some n => some n
    | none => if hasLeadingZero cs then none else (digits? 10 unsigned).map Int.ofNat

/-- The number of a spelling of digits with an optional point and an optional exponent. -/
def magnitude? (cs : List Char) : Option Float :=
  let whole := cs.takeWhile Char.isDigit
  let rest := cs.dropWhile Char.isDigit
  let (fraction, rest) := match rest with
    | '.' :: rest => (rest.takeWhile Char.isDigit, rest.dropWhile Char.isDigit)
    | _ => ([], rest)
  if whole.isEmpty && fraction.isEmpty then none
  else do
    let m ← digits? 10 (whole ++ fraction)
    let exponent : Int ← match rest with
      | [] => some 0
      | e :: rest =>
        if e = 'e' || e = 'E' then
          match rest with
          | '-' :: rest => (digits? 10 rest).map fun n => -(n : Int)
          | '+' :: rest => (digits? 10 rest).map Int.ofNat
          | _ => (digits? 10 rest).map Int.ofNat
        else none
    let scale := exponent - fraction.length
    if m = 0 then some 0
    else if 400 < scale + (whole ++ fraction).length then none
    else if scale + (whole ++ fraction).length < -400 then some 0
    else
      let x := Float.ofScientific m (scale < 0) scale.natAbs
      if x.isFinite then some x else none

/-- The fractional number of a spelling. -/
def float? (s : String) : Option Float :=
  if s = ".inf" || s = ".Inf" || s = ".INF" || s = "+.inf" || s = "+.Inf" || s = "+.INF" then some (1 / 0)
  else if s = "-.inf" || s = "-.Inf" || s = "-.INF" then some (-1 / 0)
  else if s = ".nan" || s = ".NaN" || s = ".NAN" then some (0 / 0)
  else match s.toList with
    | '-' :: rest => (magnitude? rest).map Float.neg
    | '+' :: rest => magnitude? rest
    | cs => magnitude? cs

/-- Whole numbers beyond one hundred and twenty-eight bits are not read as whole numbers. -/
def fitsWide (n : Int) : Bool :=
  -(Nat.pow 2 127 : Int) ≤ n && n < (Nat.pow 2 128 : Int)

/-- What an untagged plain spelling stands for. -/
def meaning (s : String) : Meaning :=
  if s.isEmpty || isNullText s then .null
  else match bool? s with
    | some b => .bool b
    | none =>
      let cs := s.toList
      match (int? cs).filter fitsWide with
      | some n => .int n
      | none =>
        match if hasLeadingZero cs then none else float? s with
        | some x => .float x
        | none => .text s

/-- The tag that makes a scalar a value of its own kind: one that begins with an exclamation mark. -/
def localTag? (tag : Option String) : Option String :=
  match tag with
  | none => none
  | some t => match t.toList with
    | ['!'] => some t
    | '!' :: rest => some (String.ofList rest)
    | _ => none

/-- A fractional number as a message shows it: in positional form, with a point. -/
def floatText (x : Float) : String :=
  if x.isFinite then
    let text := Decimal.Layout.plain.floatText x.toBits
    if text.toList.contains '.' then text else text ++ ".0"
  else if x.isNaN then "NaN"
  else if x < 0 then "-inf"
  else "inf"

/-- What a reading of a scalar comes to: a value, or a spelling that its tag does not allow. -/
def read (s : Scalar) : Except DecodeError Meaning :=
  match s.tag with
  | some tag =>
    if tag = coreTag "bool" then
      match bool? s.spelling with
      | some b => .ok (.bool b)
      | none => .error (.here (.invalidValue (.text s.spelling) "a boolean"))
    else if tag = coreTag "int" then
      match (int? s.spelling.toList).filter fitsWide with
      | some n => .ok (.int n)
      | none => .error (.here (.invalidValue (.text s.spelling) "an integer"))
    else if tag = coreTag "float" then
      match float? s.spelling with
      | some x => .ok (.float x)
      | none => .error (.here (.invalidValue (.text s.spelling) "a float"))
    else if tag = coreTag "null" then
      if isNullText s.spelling then .ok .null
      else .error (.here (.invalidValue (.text s.spelling) "null"))
    else if (localTag? s.tag).isSome && s.style = .plain then .ok (meaning s.spelling)
    else .ok (.text s.spelling)
  | none => if s.style = .plain then .ok (meaning s.spelling) else .ok (.text s.spelling)

/-- A whole number fits into sixty-four bits, signed or not. -/
def fitsInt (n : Int) : Bool :=
  Data.minInt ≤ n && n ≤ Data.maxInt

/-- What a meaning is called in a message. -/
def Meaning.found : Meaning → Found
  | null => .unitValue
  | bool b => .bool b
  | int n => if fitsInt n then .int n else .wideInt n
  | float x => .float (floatText x)
  | text s => .text s

/-- The error of a scalar where something else was expected. -/
def refuse (s : Scalar) (expected : String) : DecodeError :=
  match s.read with
  | .ok m => .here (.invalidType m.found expected)
  | .error e => e

/-- A plain scalar without any spelling: where a group is expected it stands for the empty one. -/
def isBlank (s : Scalar) : Bool :=
  s.spelling.isEmpty && s.style = .plain

end Scalar

end Folio.Decode
