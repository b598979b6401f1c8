import Folio.Decode.Scalar

/-!
# Sources

What decoders read: a tree that stands for a data value or for a node of a configuration document. Where the two differ,
the node says so: data brings typed values and its lists may stand for records, a configuration brings scalars whose
meaning is open. The readers here are for single values; records are read in `Folio.Decode.Record`.
-/

namespace Folio.Decode

/-- Where a tree comes from. The lists of a data value may stand for records, their items being the fields in order. -/
inductive Origin
  | data
  | config
  deriving DecidableEq, Repr, Inhabited

/-- A tree to be decoded. -/
inductive Source
  | null
  | bool (value : Bool)
  | int (value : Int)
  | float (bits : UInt64)
  | text (value : String)
  | scalar (s : Scalar)
  | list (origin : Origin) (tag : Option String) (items : List Source)
  /-- A group of entries, each a label for messages, a key and a value. -/
  | map (origin : Origin) (tag : Option String) (entries : List (String × Source × Source))
  /-- Here the document is not well formed. -/
  | fault
  deriving Inhabited

namespace Source

mutual

/-- A data value as a source. -/
def ofData : Data → Source
  | .null => .null
  | .bool b => .bool b
  | .int n => .int n
  | .float bits => .float bits
  | .text s => .text s
  | .list items => .list .data none (ofItems items)
  | .object fields => .map .data none (ofFields fields)

/-- The items of a list as sources. -/
def ofItems : List Data → List Source
  | [] => []
  | item :: rest => ofData item :: ofItems rest

/-- The fields of an object as entries. -/
def ofFields : List (String × Data) → List (String × Source × Source)
  | [] => []
  | (key, value) :: rest => (key, .text key, ofData value) :: ofFields rest

end

/-- The error of a source where something else was expected. -/
def refuse (expected : String) : Source → DecodeError
  | null => .here (.invalidType .null expected)
  | bool b => .here (.invalidType (.bool b) expected)
  | int n => .here (.invalidType (.int n) expected)
  | float bits => .here (.invalidType (.float (Decimal.Layout.data.floatText bits)) expected)
  | text s => .here (.invalidType (.text s) expected)
  | scalar s => s.refuse expected
  | list .. => .here (.invalidType .sequence expected)
  | map .. => .here (.invalidType .map expected)
  | fault => .malformed

/-- Read a text. -/
def readText (expected : String) : Source → Except DecodeError String
  | text s => .ok s
  | scalar s => .ok s.spelling
  | other => .error (other.refuse expected)

/-- Read a whole number that is not negative. -/
def readSize : Source → Except DecodeError Nat
  | int n => if 0 ≤ n then .ok n.toNat else .error (.here (.invalidValue (.int n) "usize"))
  | scalar s =>
    let isNumber := s.style = .plain || (s.style = .literal && s.tag = some (Scalar.coreTag "int"))
    match if isNumber then Scalar.int? s.spelling.toList else none with
    | some n =>
      if 0 ≤ n ∧ n ≤ Data.maxInt ∧ s.spelling.toList.head? ≠ some '-' then .ok n.toNat
      else .error (s.refuse "usize")
    | none => .error (s.refuse "usize")
  | other => .error (other.refuse "usize")

/-- Read an optional text: nothing and an empty plain scalar are none. -/
def readOptionalText (expected : String) : Source → Except DecodeError (Option String)
  | null => .ok none
  | scalar s =>
    if s.style ≠ .plain then .ok (some s.spelling)
    else match s.tag with
      | some tag =>
        if tag = Scalar.coreTag "null" then
          if Scalar.isNullText s.spelling then .ok none
          else .error (.here (.invalidValue (.text s.spelling) "null"))
        else .ok (some s.spelling)
      | none => .ok (if s.isBlank || Scalar.isNullText s.spelling then none else some s.spelling)
  | other => (other.readText expected).map some

/-- The data value of a meaning; a number that is too wide is refused. -/
def dataOf : Scalar.Meaning → Except DecodeError Data
  | .null => .ok .null
  | .bool b => .ok (.bool b)
  | .int n => if Scalar.fitsInt n then .ok (.int n) else .error .malformed
  | .float x => .ok (Data.ofFloat x)
  | .text s => .ok (.text s)

/-- What a data value is called where something else stands. -/
def anyData : String := "any valid JSON value"

mutual

/-- Read a data value. -/
def readData : Source → Except DecodeError Data
  | null => .ok .null
  | bool b => .ok (.bool b)
  | int n => .ok (.int n)
  | float bits => .ok (.float bits)
  | text s => .ok (.text s)
  | scalar s =>
    if (Scalar.localTag? s.tag).isSome then .error (.here (.invalidType .tagged anyData))
    else match s.read with
      | .ok m => dataOf m
      | .error e => .error e
  | list _ tag items =>
    if (Scalar.localTag? tag).isSome then .error (.here (.invalidType .tagged anyData))
    else (readItems 0 items).map .list
  | map _ tag entries =>
    if (Scalar.localTag? tag).isSome then .error (.here (.invalidType .tagged anyData))
    else (readEntries "a string key" [] entries).map .object
  | fault => .error .malformed

/-- Read the items of a list, the first of them being the item at `index`. -/
def readItems (index : Nat) : List Source → Except DecodeError (List Data)
  | [] => .ok []
  | item :: rest =>
    match readData item with
    | .error e => .error (e.below (.item index))
    | .ok d => match readItems (index + 1) rest with
      | .error e => .error e
      | .ok ds => .ok (d :: ds)

/-- Read entries into the fields read before; `expectedKey` is what the first key is called in a message. -/
def readEntries (expectedKey : String) (fields : Keyed Data) :
    List (String × Source × Source) → Except DecodeError (Keyed Data)
  | [] => .ok fields
  | (label, key, value) :: rest =>
    match key.readText expectedKey with
    | .error e => .error e
    | .ok k => match readData value with
      | .error e => .error (e.below (.key label))
      | .ok d => readEntries "a string" (Keyed.insert fields k d) rest

end

/-- Read an object of data values. -/
def readObject : Source → Except DecodeError (Keyed Data)
  | map _ _ entries => readEntries "a string" [] entries
  | scalar s => if s.isBlank then .ok [] else .error (s.refuse "a map")
  | other => .error (other.refuse "a map")

/-- Read each item of a list. -/
def readEach {α : Type} (read : Source → Except DecodeError α) (index : Nat) :
    List Source → Except DecodeError (List α)
  | [] => .ok []
  | item :: rest =>
    match read item with
    | .error e => .error (e.below (.item index))
    | .ok a => match readEach read (index + 1) rest with
      | .error e => .error e
      | .ok as => .ok (a :: as)

/-- Read a list. -/
def readList {α : Type} (read : Source → Except DecodeError α) : Source → Except DecodeError (List α)
  | list _ _ items => readEach read 0 items
  | scalar s => if s.isBlank then .ok [] else .error (s.refuse "a sequence")
  | other => .error (other.refuse "a sequence")

end Source

end Folio.Decode
