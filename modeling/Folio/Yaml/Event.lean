import Folio.Yaml.Token.Scan

/-!
# YAML events

The structure of a document as a row of events: its scalars and aliases, and the beginnings and ends of its lists and
maps. Events are recorded as they are read, so that what comes before a fault in the text is known. A key or a value
that is left out is an empty plain scalar.
-/

namespace Folio.Yaml

/-- An event. -/
inductive Event
  | alias (name : String)
  | scalar (anchor? : Option String) (s : Decode.Scalar)
  | listStart (anchor? tag? : Option String)
  | listEnd
  | mapStart (anchor? tag? : Option String)
  | mapEnd
  deriving DecidableEq, Repr

/-- How far a document has been read. -/
structure Progress where
  tokens : List Token
  /-- The events so far, the latest first. -/
  events : List Event := []
  /-- What the handles of tags stand for. -/
  handles : List (String × String) := []

/-- A step in reading a document. -/
abbrev Reading (α : Type) := ExceptT Unit (StateM Progress) α

namespace Event

/-- The next token. -/
def peek : Reading Token := do
  match (← get).tokens with
  | t :: _ => return t
  | [] => throw ()

/-- Go on behind the next token. -/
def skip : Reading Unit :=
  modify fun p => { p with tokens := p.tokens.tail }

/-- Record an event. -/
def record (e : Event) : Reading Unit :=
  modify fun p => { p with events := e :: p.events }

/-- Record a scalar that is left out. -/
def recordEmpty : Reading Unit :=
  record (.scalar none { spelling := "" })

/-! ## Properties of nodes -/

/-- The tag of a handle and a suffix. -/
def expandTag (handle suffix : String) : Reading String := do
  if handle.isEmpty then return suffix
  else match (← get).handles.lookup handle with
    | some expansion => return expansion ++ suffix
    | none => throw ()

/-- Read the anchor before a node, if there is one. -/
def anchor? : Reading (Option String) := do
  match ← peek with
  | .anchor name =>
    skip
    return some name
  | _ => return none

/-- Read the tag before a node, if there is one. -/
def tag? : Reading (Option (String × String)) := do
  match ← peek with
  | .tag handle suffix =>
    skip
    return some (handle, suffix)
  | _ => return none

/-- Read the anchor and the tag before a node, in either order. -/
def properties : Reading (Option String × Option String) := do
  let (anchor?, tag?) ← match ← peek with
    | .anchor name =>
      skip
      pure (some name, ← tag?)
    | .tag handle suffix =>
      skip
      pure (← anchor?, some (handle, suffix))
    | _ => pure (none, none)
  let _ ← peek
  match tag? with
  | none => return (anchor?, none)
  | some (handle, suffix) => return (anchor?, some (← expandTag handle suffix))

/-- The tag that a scalar keeps: the one that stands for no tag is dropped. -/
def scalarTag (tag? : Option String) : Option String :=
  tag?.filter (· ≠ "!")

/-! ## Nodes -/

mutual

/-- Read a node. Blocks are read where they may stand, and so are lists that are not indented. -/
def node (blocks unindented : Bool) : Nat → Reading Unit
  | 0 => throw ()
  | bound + 1 => do
    match ← peek with
    | .alias name =>
      skip
      record (.alias name)
    | _ =>
      let (anchor?, tag?) ← properties
      match ← peek with
      | .blockEntry =>
        if unindented then
          record (.listStart anchor? tag?)
          unindentedItems bound
        else absent anchor? tag?
      | .scalar text style =>
        skip
        record (.scalar anchor? { spelling := text, style, tag := scalarTag tag? })
      | .flowListStart =>
        record (.listStart anchor? tag?)
        skip
        flowItems true bound
      | .flowMapStart =>
        record (.mapStart anchor? tag?)
        skip
        flowEntries true bound
      | .blockListStart =>
        if blocks then
          record (.listStart anchor? tag?)
          skip
          blockItems bound
        else absent anchor? tag?
      | .blockMapStart =>
        if blocks then
          record (.mapStart anchor? tag?)
          skip
          blockEntries bound
        else absent anchor? tag?
      | _ => absent anchor? tag?

/-- Record a node that is left out behind an anchor or a tag. -/
def absent (anchor? tag? : Option String) : Reading Unit := do
  if anchor?.isSome || tag?.isSome then record (.scalar anchor? { spelling := "", tag := tag? }) else throw ()

/-- Read the items of a block. -/
def blockItems : Nat → Reading Unit
  | 0 => throw ()
  | bound + 1 => do
    match ← peek with
    | .blockEntry =>
      skip
      match ← peek with
      | .blockEntry | .blockEnd => recordEmpty
      | _ => node true false bound
      blockItems bound
    | .blockEnd =>
      skip
      record .listEnd
    | _ => throw ()

/-- Read the items of a list that is not indented. -/
def unindentedItems : Nat → Reading Unit
  | 0 => throw ()
  | bound + 1 => do
    match ← peek with
    | .blockEntry =>
      skip
      match ← peek with
      | .blockEntry | .key | .value | .blockEnd => recordEmpty
      | _ => node true false bound
      unindentedItems bound
    | _ => record .listEnd

/-- Read the entries of a block. -/
def blockEntries : Nat → Reading Unit
  | 0 => throw ()
  | bound + 1 => do
    match ← peek with
    | .key =>
      skip
      match ← peek with
      | .key | .value | .blockEnd => recordEmpty
      | _ => node true true bound
      match ← peek with
      | .value =>
        skip
        match ← peek with
        | .key | .value | .blockEnd => recordEmpty
        | _ => node true true bound
      | _ => recordEmpty
      blockEntries bound
    | .blockEnd =>
      skip
      record .mapEnd
    | _ => throw ()

/-- Read the items of a list between brackets, `first` saying whether none has been read yet. A key makes an item a map
of one entry. -/
def flowItems (first : Bool) : Nat → Reading Unit
  | 0 => throw ()
  | bound + 1 => do
    match ← peek with
    | .flowListEnd =>
      skip
      record .listEnd
    | t =>
      if !first then
        if t = .flowEntry then skip else throw ()
      match ← peek with
      | .flowListEnd =>
        skip
        record .listEnd
      | .key =>
        record (.mapStart none none)
        skip
        flowPair bound
        flowItems false bound
      | _ =>
        node false false bound
        flowItems false bound

/-- Read a key and a value that are an item of a list between brackets. -/
def flowPair : Nat → Reading Unit
  | 0 => throw ()
  | bound + 1 => do
    match ← peek with
    | .value | .flowEntry | .flowListEnd =>
      skip
      recordEmpty
    | _ => node false false bound
    match ← peek with
    | .value =>
      skip
      match ← peek with
      | .flowEntry | .flowListEnd => recordEmpty
      | _ => node false false bound
    | _ => recordEmpty
    let _ ← peek
    record .mapEnd

/-- Read the entries of a map between brackets, `first` saying whether none has been read yet. -/
def flowEntries (first : Bool) : Nat → Reading Unit
  | 0 => throw ()
  | bound + 1 => do
    match ← peek with
    | .flowMapEnd =>
      skip
      record .mapEnd
    | t =>
      if !first then
        if t = .flowEntry then skip else throw ()
      match ← peek with
      | .flowMapEnd =>
        skip
        record .mapEnd
      | .key =>
        skip
        match ← peek with
        | .value | .flowEntry | .flowMapEnd => recordEmpty
        | _ => node false false bound
        match ← peek with
        | .value =>
          skip
          match ← peek with
          | .flowEntry | .flowMapEnd => recordEmpty
          | _ => node false false bound
        | _ => recordEmpty
        flowEntries false bound
      | _ =>
        node false false bound
        let _ ← peek
        recordEmpty
        flowEntries false bound

end

/-! ## Documents -/

/-- The handles of tags that need no directive. -/
def commonHandles : List (String × String) := [("!", "!"), ("!!", Decode.Scalar.coreTag "")]

/-- Read directives. A version other than 1.1 and 1.2 and anything that is said twice are refused. -/
def directives (versionSeen : Bool) : Nat → Reading Unit
  | 0 => throw ()
  | bound + 1 => do
    match ← peek with
    | .versionDirective major minor =>
      if versionSeen || major ≠ 1 || (minor ≠ 1 && minor ≠ 2) then throw ()
      skip
      directives true bound
    | .tagDirective handle expansion =>
      let p ← get
      if (p.handles.lookup handle).isSome then throw ()
      set { p with handles := p.handles ++ [(handle, expansion)] }
      skip
      directives versionSeen bound
    | _ => modify fun p => { p with handles := p.handles ++ commonHandles }

/-- Read the first document of a stream. -/
def document : Reading Unit := do
  let size := (← get).tokens.length
  let bound := 2 * size + 4
  match ← peek with
  | .streamEnd => return
  | .versionDirective .. | .tagDirective .. | .documentStart =>
    directives false bound
    match ← peek with
    | .documentStart => skip
    | _ => throw ()
    match ← peek with
    | .versionDirective .. | .tagDirective .. | .documentStart | .documentEnd | .streamEnd => recordEmpty
    | _ => node true false bound
  | _ =>
    directives false bound
    node true false bound

/-- The events of the first document of a text, and whether the text is well formed and holds no other document. -/
def ofText (text : String) : List Event × Bool :=
  let (result, p) := document.run { tokens := Token.scan text }
  let last := p.tokens.dropWhile (· = .documentEnd)
  (p.events.reverse, result.toBool && last = [.streamEnd])

end Event

end Folio.Yaml
