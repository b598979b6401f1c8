import Folio.Decode.Source
import Folio.Yaml.Event

/-!
# YAML documents

A document as a source for decoding. Aliases stand for the nodes that their anchors name; since such a node can stand
in many places, and even in itself, the depth of a document and the number of its aliases are bounded. A fault in the
text is a fault in the source at that place, so a decoder first meets what comes before it.
-/

namespace Folio.Yaml

open Decode (Source DecodeError)

/-- An event whose alias is known by the number of its anchor. -/
inductive Numbered
  | alias (number : Nat)
  | scalar (s : Decode.Scalar)
  | listStart (tag? : Option String)
  | listEnd
  | mapStart (tag? : Option String)
  | mapEnd
  deriving Inhabited

/-- The events of a document with their anchors, as far as they have been gone through. -/
structure Anchors where
  /-- The numbers of the anchors' names, the latest first. -/
  names : List (String × Nat) := []
  /-- The places of the anchored events by the number of their anchor, the latest first. -/
  places : List (Nat × Nat) := []

namespace Anchors

/-- An anchor stands at an event: its number is the number of names that are in use. -/
def note (a : Anchors) (anchor? : Option String) (place : Nat) : Anchors :=
  match anchor? with
  | none => a
  | some name =>
    let number := a.names.length
    { names := (name, number) :: a.names.filter (·.1 ≠ name), places := (number, place) :: a.places }

/-- Number the events of a document from a place on. An alias without an anchor before it is a fault, and the events end
there. -/
def resolve (a : Anchors) (place : Nat) : List Event → List Numbered × Anchors × Bool
  | [] => ([], a, true)
  | .alias name :: rest =>
    match a.names.lookup name with
    | some number => go a (.alias number) rest
    | none => ([], a, false)
  | .scalar anchor? s :: rest => go (a.note anchor? place) (.scalar s) rest
  | .listStart anchor? tag? :: rest => go (a.note anchor? place) (.listStart tag?) rest
  | .listEnd :: rest => go a .listEnd rest
  | .mapStart anchor? tag? :: rest => go (a.note anchor? place) (.mapStart tag?) rest
  | .mapEnd :: rest => go a .mapEnd rest
where
  go (a : Anchors) (e : Numbered) (rest : List Event) : List Numbered × Anchors × Bool :=
    let (events, a, known) := resolve a (place + 1) rest
    (e :: events, a, known)

end Anchors

/-- How far the events of a document have been read. -/
structure Walk where
  events : List Numbered
  /-- The aliases that may still be followed. -/
  aliases : Nat

namespace Walk

/-- How deep the lists and maps of a document may be nested. -/
def maxDepth : Nat := 128

/-- How often, for each event of a document, an alias may be followed. -/
def aliasesPerEvent : Nat := 100

/-- The walk stops at a fault. -/
def stop : Source × Walk := (.fault, { events := [], aliases := 0 })

/-- Read the items of a list. -/
def items (item : Walk → Source × Walk) : Nat → Walk → List Source × Walk
  | 0, w => ([.fault], w)
  | bound + 1, w =>
    match w.events with
    | [] => ([.fault], w)
    | .listEnd :: rest => ([], { w with events := rest })
    | _ =>
      let (first, w) := item w
      let (others, w) := items item bound w
      (first :: others, w)

/-- What a key is called in messages. -/
def label (w : Walk) : String :=
  match w.events with
  | .scalar s :: _ => s.spelling
  | _ => "?"

/-- Read the entries of a map. -/
def entries (item : Walk → Source × Walk) : Nat → Walk → List (String × Source × Source) × Walk
  | 0, w => ([("", .fault, .fault)], w)
  | bound + 1, w =>
    match w.events with
    | [] => ([("", .fault, .fault)], w)
    | .mapEnd :: rest => ([], { w with events := rest })
    | _ =>
      let label := w.label
      let (key, w) := item w
      let (value, w) := item w
      let (others, w) := entries item bound w
      ((label, key, value) :: others, w)

/-- Read a node; `target?` gives the events from an anchor on. -/
def node (target? : Nat → Option (List Numbered)) : Nat → Walk → Source × Walk
  | 0, w => follow (fun w => match w.events with
    | .scalar s :: rest => (.scalar s, { w with events := rest })
    | _ => stop) w
  | depth + 1, w => follow (fun w => match w.events with
    | .scalar s :: rest => (.scalar s, { w with events := rest })
    | .listStart tag? :: rest =>
      let (found, w) := items (node target? depth) rest.length { w with events := rest }
      (.list .config tag? found, w)
    | .mapStart tag? :: rest =>
      let (found, w) := entries (node target? depth) rest.length { w with events := rest }
      (.map .config tag? found, w)
    | _ => stop) w
where
  /-- Read what an alias stands for, or what comes next. -/
  follow (plain : Walk → Source × Walk) (w : Walk) : Source × Walk :=
    match w.events with
    | .alias number :: rest =>
      match w.aliases, target? number with
      | aliases + 1, some events =>
        let (found, after) := plain { events, aliases }
        if after.events.isEmpty && after.aliases = 0 then (found, after)
        else (found, { events := rest, aliases := after.aliases })
      | _, _ => stop
    | _ => plain w

end Walk

/-- The first document of a text as a source, and whether there is nothing wrong behind it. A text without a document
is an empty scalar. -/
def readDocument (text : String) : Source × Bool :=
  let (events, sound) := Event.ofText text
  if events.isEmpty then (if sound then .scalar { spelling := "" } else .fault, sound)
  else
    let (numbered, anchors, known) := Anchors.resolve {} 0 events
    let target? (number : Nat) : Option (List Numbered) :=
      (anchors.places.lookup number).map fun place => numbered.drop place
    let budget := numbered.length * Walk.aliasesPerEvent
    let (root, _) := Walk.node target? Walk.maxDepth { events := numbered, aliases := budget }
    (root, sound && known)

/-- Decode the document of a text. -/
def decode {α : Type} (read : Source → Except DecodeError α) (text : String) : Except DecodeError α :=
  let (root, sound) := readDocument text
  match read root with
  | .error e => .error e
  | .ok a => if sound then .ok a else .error .malformed

end Folio.Yaml
