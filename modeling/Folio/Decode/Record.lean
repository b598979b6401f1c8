import Folio.Decode.Source

/-!
# Records

A record type is described by its fields: how each is read and put into a draft, and how a full draft becomes a value.
One reader serves every record. It takes the entries of a group in order, or the items of a positional list; fields
that are left out have their defaults, and a required one that is missing is an error.
-/

namespace Folio.Decode

/-- A field of a record that is read into a draft. -/
structure RecordField (δ : Type) where
  name : String
  required : Bool := false
  /-- The draft already has a value for the field. -/
  isSet : δ → Bool
  /-- Read a value for the field and put it into the draft. -/
  read : Source → δ → Except DecodeError δ

/-- A field whose value is an optional part of the draft. -/
def RecordField.of {δ α : Type} (name : String) (get : δ → Option α) (put : α → δ → δ)
    (read : Source → Except DecodeError α) (required : Bool) : RecordField δ where
  name
  required
  isSet d := (get d).isSome
  read s d := (read s).map fun a => put a d

/-- How a record type is read. -/
structure Record (δ α : Type) where
  /-- The name of the type in messages. -/
  title : String
  fields : List (RecordField δ)
  /-- A key that names no field is refused. -/
  closed : Bool := true
  blank : δ
  /-- The value of a draft, defaults filled in, or the required field that it lacks. -/
  finish : δ → Except Mismatch α

namespace Record

variable {δ α : Type}

/-- What the record type is called where something else stands. -/
def expected (r : Record δ α) : String := "struct " ++ r.title

/-- Read the entries of a group into a draft. -/
def readEntries (r : Record δ α) (draft : δ) : List (String × Source × Source) → Except DecodeError δ
  | [] => .ok draft
  | (label, key, value) :: rest =>
    match key.readText "field identifier" with
    | .error e => .error e
    | .ok name =>
      match r.fields.find? (·.name = name) with
      | none =>
        if r.closed then .error (.here (.unknownField name (r.fields.map (·.name))))
        else r.readEntries draft rest
      | some field =>
        if field.isSet draft then .error (.here (.duplicateField name))
        else match field.read value draft with
          | .error e => .error (e.below (.key label))
          | .ok draft => r.readEntries draft rest

/-- What a full list of a record's fields is called. -/
def positionalExpected (r : Record δ α) : String :=
  "struct " ++ r.title ++ " with " ++ Nat.repr r.fields.length ++
    (if r.fields.length = 1 then " element" else " elements")

/-- Read a positional list into a draft: `fields` are to be read, the first of them from the item at `index`. The items
that are left over are returned. -/
def readPositions (r : Record δ α) (index : Nat) (draft : δ) :
    List (RecordField δ) → List Source → Except DecodeError (δ × List Source)
  | [], items => .ok (draft, items)
  | field :: fields, [] =>
    if field.required then .error (.here (.invalidLength index r.positionalExpected))
    else r.readPositions (index + 1) draft fields []
  | field :: fields, item :: items =>
    match field.read item draft with
    | .error e => .error (e.below (.item index))
    | .ok draft => r.readPositions (index + 1) draft fields items

/-- The value of a draft. -/
def complete (r : Record δ α) (draft : δ) : Except DecodeError α :=
  match r.finish draft with
  | .ok a => .ok a
  | .error cause => .error (.here cause)

/-- Read a record. -/
def read (r : Record δ α) : Source → Except DecodeError α
  | .map _ _ entries =>
    match r.readEntries r.blank entries with
    | .error e => .error e
    | .ok draft => r.complete draft
  | .list .data _ items =>
    match r.readPositions 0 r.blank r.fields items with
    | .error e => .error e
    | .ok (draft, rest) =>
      if rest.isEmpty then r.complete draft
      else .error (.here (.invalidLength items.length "fewer elements in array"))
  | .scalar s => if s.isBlank then r.complete r.blank else .error (s.refuse r.expected)
  | other => .error (other.refuse r.expected)

end Record

end Folio.Decode
