import Folio.Keyed

/-!
# Data

The values that rows, parameters, registries and runtime fields are made of. A whole number and a number with a
fraction are different values even where they are equal as numbers. A fractional number is held by the bits of its
binary form, so that equality of data is equality of what is held.
-/

namespace Folio

/-- A value: nothing, a truth value, a number, a text, a list or an object whose keys stand in order. -/
inductive Data
  | null
  | bool (value : Bool)
  | int (value : Int)
  | float (bits : UInt64)
  | text (value : String)
  | list (items : List Data)
  | object (fields : List (String × Data))
  deriving Inhabited

/-- One element of a bound result set. -/
abbrev Row := Keyed Data

/-- What a view is given beside its rows. -/
abbrev Parameters := Keyed Data

namespace Data

/-- The text, of a text. -/
def text? : Data → Option String
  | text s => some s
  | _ => none

/-- The fields, of an object. -/
def object? : Data → Option (Keyed Data)
  | object fields => some fields
  | _ => none

/-- The items, of a list. -/
def list? : Data → Option (List Data)
  | list items => some items
  | _ => none

/-- The smallest whole number that data can hold. -/
def minInt : Int := -(Nat.pow 2 63 : Int)

/-- The largest whole number that data can hold. -/
def maxInt : Int := (Nat.pow 2 64 : Int) - 1

/-- The fractional number with a given binary form; what is not a finite number is nothing. -/
def ofFloat (x : Float) : Data :=
  if x.isFinite then float x.toBits else null

/-- A whole number as data: within the bounds as it is, beyond them as the nearest fractional number. -/
def ofInt (n : Int) : Data :=
  if minInt ≤ n ∧ n ≤ maxInt then int n else ofFloat (Float.ofInt n)

mutual

/-- The values are equal: numbers of one kind by value, everything else by structure. -/
def same : Data → Data → Bool
  | null, null => true
  | bool a, bool b => a = b
  | int a, int b => a = b
  | float a, float b => Float.ofBits a == Float.ofBits b
  | text a, text b => a = b
  | list a, list b => sameItems a b
  | object a, object b => sameFields a b
  | _, _ => false

/-- The lists are equal item by item. -/
def sameItems : List Data → List Data → Bool
  | [], [] => true
  | a :: as, b :: bs => same a b && sameItems as bs
  | _, _ => false

/-- The objects are equal field by field. -/
def sameFields : List (String × Data) → List (String × Data) → Bool
  | [], [] => true
  | (k, a) :: as, (l, b) :: bs => k = l && same a b && sameFields as bs
  | _, _ => false

end

end Data

end Folio
