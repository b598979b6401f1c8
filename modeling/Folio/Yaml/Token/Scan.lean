import Folio.Yaml.Text
import Folio.Yaml.Token

/-!
# Scanning YAML

A text becomes a row of tokens. Outside brackets the column of a token says which blocks begin and end before it. What
may turn out to be a key is remembered where it begins; when a colon follows on the same line, the tokens that make it
a key are put in there. A row that does not end in the end of the stream is one whose text could not be scanned to the
end: it holds the tokens that are certain up to there.
-/

namespace Folio.Yaml

/-- Something that may turn out to be a key. -/
structure KeyStart where
  /-- Nothing but a key can stand here. -/
  isRequired : Bool
  /-- The number of tokens before it. -/
  position : Nat
  start : Cursor

/-- What begins here can no longer turn out to be a key: keys end on their line and within 1024 characters. -/
def KeyStart.isStale (k : KeyStart) (c : Cursor) : Bool :=
  k.start.line < c.line || k.start.index + 1024 < c.index

/-- How far a text has been scanned. -/
structure Scanner where
  cursor : Cursor
  /-- The tokens so far, the latest first. -/
  tokens : List Token := []
  /-- The column of the innermost block. -/
  indent : Int := -1
  /-- The columns of the blocks around it, from the inside. -/
  outer : List Int := []
  /-- A key may begin here. -/
  keyAllowed : Bool := true
  /-- What may turn out to be a key: outside brackets. -/
  blockKey? : Option KeyStart := none
  /-- What may turn out to be a key: in each of the open brackets, from the inside. -/
  flowKeys : List (Option KeyStart) := []

/-- A step of a scanner; none if the text cannot be scanned further. -/
abbrev Scanning (α : Type) := StateT Scanner Option α

namespace Scanner

/-- The scanner stands between brackets. -/
def inFlow (s : Scanner) : Bool := !s.flowKeys.isEmpty

/-- What may turn out to be a key on the innermost level. -/
def key? (s : Scanner) : Option KeyStart :=
  match s.flowKeys with
  | [] => s.blockKey?
  | key? :: _ => key?

/-- The scanner with another possible key on the innermost level. -/
def setKey (s : Scanner) (key? : Option KeyStart) : Scanner :=
  match s.flowKeys with
  | [] => { s with blockKey? := key? }
  | _ :: rest => { s with flowKeys := key? :: rest }

/-- The scanner with a token put in behind the first `position` tokens. -/
def putAt (s : Scanner) (position : Nat) (t : Token) : Scanner :=
  let later := s.tokens.length - position
  { s with tokens := s.tokens.take later ++ t :: s.tokens.drop later }

/-- The tokens that are certain: those before the first that may still turn out to be a key. -/
def certain (s : Scanner) : List Token :=
  let pending := (s.blockKey? :: s.flowKeys).filterMap fun key? =>
    (key?.filter (!KeyStart.isStale · s.cursor)).map KeyStart.position
  s.tokens.reverse.take (pending.foldl min s.tokens.length)

/-! ## Small steps -/

/-- Add a token. -/
def emit (t : Token) : Scanning Unit :=
  modify fun s => { s with tokens := t :: s.tokens }

/-- Go on from another place. -/
def moveTo (c : Cursor) : Scanning Unit :=
  modify fun s => { s with cursor := c }

/-- Skip some characters of the line. -/
def advance (count : Nat) : Scanning Unit :=
  modify fun s => { s with cursor := s.cursor.advance count }

/-- Say whether a key may begin at what follows. -/
def allowKey (allowed : Bool) : Scanning Unit :=
  modify fun s => { s with keyAllowed := allowed }

/-- A possible key without its colon is given up; it must not be a required one. -/
def giveUp (key? : Option KeyStart) : Option (Option KeyStart) :=
  if key?.any KeyStart.isRequired then none else some none

/-- Give up the possible key of the innermost level. -/
def dropKey : Scanning Unit := do
  let s ← get
  set (s.setKey (← giveUp s.key?))

/-- Give up the possible keys that are stale. -/
def dropStaleKeys : Scanning Unit := do
  let s ← get
  let renew (key? : Option KeyStart) : Option (Option KeyStart) :=
    if key?.any (KeyStart.isStale · s.cursor) then giveUp key? else some key?
  let blockKey? ← renew s.blockKey?
  let flowKeys ← liftM (s.flowKeys.mapM renew)
  set { s with blockKey?, flowKeys }

/-- Remember that what begins here may turn out to be a key. -/
def saveKey : Scanning Unit := do
  let s ← get
  if s.keyAllowed then
    dropKey
    modify (·.setKey (some {
      isRequired := !s.inFlow && s.indent = s.cursor.column
      position := s.tokens.length
      start := s.cursor }))

/-- Begin a block in a column further right than the innermost one, its first token going behind the first `position`
tokens. -/
def openBlock (column position : Nat) (t : Token) : Scanning Unit :=
  modify fun s =>
    if s.inFlow || (column : Int) ≤ s.indent then s
    else { s.putAt position t with indent := column, outer := s.indent :: s.outer }

/-- Begin a block here. -/
def openBlockHere (t : Token) : Scanning Unit := do
  let s ← get
  openBlock s.cursor.column s.tokens.length t

/-- The innermost blocks end that lie right of a column; `outer` are the columns around the innermost. -/
def closing (column : Int) (indent : Int) (tokens : List Token) : List Int → Int × List Int × List Token
  | [] => (indent, [], tokens)
  | next :: outer =>
    if column < indent then closing column next (.blockEnd :: tokens) outer
    else (indent, next :: outer, tokens)

/-- End the blocks that lie right of a column. -/
def closeBlocks (column : Int) : Scanning Unit :=
  modify fun s =>
    if s.inFlow then s
    else
      let (indent, outer, tokens) := closing column s.indent s.tokens s.outer
      { s with indent, outer, tokens }

/-! ## Between tokens -/

/-- Skip a byte order mark at the beginning of a line. -/
def skipOrderMark (c : Cursor) : Cursor :=
  if c.column = 0 && c.isAt '\ufeff' then c.advance 1 else c

/-- Skip spaces, comments and line ends. A tab may stand where no key can begin. -/
def skipGaps : Nat → Scanner → Scanner
  | 0, s => s
  | bound + 1, s =>
    let tabs := s.inFlow || !s.keyAllowed
    let c := ((skipOrderMark s.cursor).skip fun char => char = ' ' || (tabs && char = '\t')).skipComment
    match c.nextLine? with
    | some (_, next) => skipGaps bound { s with cursor := next, keyAllowed := s.keyAllowed || !s.inFlow }
    | none => { s with cursor := c }

/-! ## Directives, anchors and tags -/

/-- The number of some decimal digits, of which there may be nine. -/
def versionNumber? (c : Cursor) : Option (Nat × Cursor) :=
  let (digits, c) := c.span Char.isDigit
  if digits.isEmpty || digits.length > 9 then none
  else some (digits.foldl (fun n d => n * 10 + (d.toNat - '0'.toNat)) 0, c)

/-- The characters of an escape in a tag: a percent sign and two digits stand for one byte. -/
def tagByte? : List Char → Option UInt8
  | '%' :: a :: b :: _ => do return UInt8.ofNat ((← hexDigit? a) * 16 + (← hexDigit? b))
  | _ => none

/-- The number of bytes of the character that begins with a byte. -/
def byteCount? (b : UInt8) : Option Nat :=
  if b < 0x80 then some 1
  else if b &&& 0xE0 = 0xC0 then some 2
  else if b &&& 0xF0 = 0xE0 then some 3
  else if b &&& 0xF8 = 0xF0 then some 4
  else none

/-- The bytes of a character that is escaped in a tag. -/
def tagBytes? : Nat → List Char → Option (List UInt8)
  | 0, _ => some []
  | count + 1, text => do return (← tagByte? text) :: (← tagBytes? count (text.drop 3))

/-- The character that is escaped in a tag, and the length of the escape. -/
def tagEscape? (text : List Char) : Option (Char × Nat) := do
  let count ← byteCount? (← tagByte? text)
  let bytes ← tagBytes? count text
  let decoded ← String.fromUTF8? ⟨bytes.toArray⟩
  return (← decoded.toList.head?, 3 * count)

/-- The characters of tags; between angle brackets also commas and brackets. -/
def isTagChar (verbatim : Bool) (c : Char) : Bool :=
  isNameChar c || ";/?:@&=+$.%!~*'()".toList.contains c || (verbatim && (c = ',' || c = '[' || c = ']'))

/-- Read the characters of a tag. -/
def tagText? (verbatim : Bool) : Nat → Cursor → Option (List Char × Cursor)
  | 0, c => some ([], c)
  | bound + 1, c =>
    match c.peek? with
    | none => some ([], c)
    | some char =>
      if !isTagChar verbatim char then some ([], c)
      else do
        let (char, length) ← if char = '%' then tagEscape? c.rest else some (char, 1)
        let (others, c) ← tagText? verbatim bound (c.advance length)
        return (char :: others, c)

/-- Read the characters of a tag, of which there must be some. -/
def tagText1? (verbatim : Bool) (c : Cursor) : Option (List Char × Cursor) :=
  (tagText? verbatim c.rest.length c).filter (!·.1.isEmpty)

/-- Read the handle of a tag: an exclamation mark, and a name and another one if they are there. -/
def tagHandle? (c : Cursor) : Option (List Char × Cursor) :=
  if !c.isAt '!' then none
  else
    let (name, c) := (c.advance 1).span isNameChar
    if c.isAt '!' then some ('!' :: name ++ ['!'], c.advance 1) else some ('!' :: name, c)

/-- Read a directive behind its percent sign. -/
def directive? (c : Cursor) : Option (Token × Cursor) := do
  let (name, c) := c.span isNameChar
  if !endsWord c.rest then failure
  let c := c.skip isGap
  if name = "YAML".toList then
    let (major, c) ← versionNumber? c
    if !c.isAt '.' then failure
    let (minor, c) ← versionNumber? (c.advance 1)
    return (.versionDirective major minor, ← c.finishLine?)
  else if name = "TAG".toList then
    let (handle, c) ← tagHandle? c
    if handle ≠ ['!'] && handle.getLast? ≠ some '!' then failure
    if !c.isAtKind isGap then failure
    let (expansion, c) ← tagText1? true (c.skip isGap)
    if !endsWord c.rest then failure
    return (.tagDirective (String.ofList handle) (String.ofList expansion), ← c.finishLine?)
  else failure

/-- Read the name of an anchor or an alias behind its indicator. -/
def anchorName? (c : Cursor) : Option (String × Cursor) :=
  let (name, c) := c.span isNameChar
  if name.isEmpty || !(endsWord c.rest || c.isAtKind fun char => "?:,]\x7d%@`".toList.contains char) then none
  else some (String.ofList name, c)

/-- Read a tag, the cursor standing at its exclamation mark. -/
def tag? (inFlow : Bool) (c : Cursor) : Option (Token × Cursor) := do
  let (t, c) ←
    if (c.advance 1).isAt '<' then do
      let (suffix, c) ← tagText1? true (c.advance 2)
      if !c.isAt '>' then failure
      pure (Token.tag "" (String.ofList suffix), c.advance 1)
    else do
      let (handle, c) ← tagHandle? c
      if handle.length > 1 && handle.getLast? = some '!' then
        let (suffix, c) ← tagText1? false c
        pure (Token.tag (String.ofList handle) (String.ofList suffix), c)
      else
        let (more, c) ← tagText? false c.rest.length c
        let suffix := handle.drop 1 ++ more
        pure (if suffix.isEmpty then Token.tag "" "!" else Token.tag "!" (String.ofList suffix), c)
  if endsWord c.rest || (inFlow && c.isAt ',') then return (t, c) else failure

/-! ## Tokens -/

/-- The end of the text. -/
def fetchStreamEnd : Scanning Unit := do
  closeBlocks (-1)
  dropKey
  allowKey false
  emit .streamEnd

/-- What stands alone at the beginning of a line and separates blocks from what follows. -/
def beforeMark : Scanning Unit := do
  closeBlocks (-1)
  dropKey
  allowKey false

/-- A directive. -/
def fetchDirective : Scanning Unit := do
  beforeMark
  let (t, c) ← directive? ((← get).cursor.advance 1)
  emit t
  moveTo c

/-- A mark between documents. -/
def fetchDocumentMark (t : Token) : Scanning Unit := do
  beforeMark
  emit t
  advance 3

/-- An opening bracket. -/
def fetchFlowStart (t : Token) : Scanning Unit := do
  saveKey
  modify fun s => { s with flowKeys := none :: s.flowKeys, keyAllowed := true }
  emit t
  advance 1

/-- A closing bracket. -/
def fetchFlowEnd (t : Token) : Scanning Unit := do
  dropKey
  modify fun s => { s with flowKeys := s.flowKeys.tail, keyAllowed := false }
  emit t
  advance 1

/-- A comma. -/
def fetchFlowEntry : Scanning Unit := do
  dropKey
  allowKey true
  emit .flowEntry
  advance 1

/-- Outside brackets, an indicator stands only where a key may begin, and a block may begin with it. -/
def beginIndicator (t : Token) : Scanning Unit := do
  let s ← get
  if !s.inFlow then
    if !s.keyAllowed then failure
    openBlockHere t

/-- The dash before an item. -/
def fetchBlockEntry : Scanning Unit := do
  beginIndicator .blockListStart
  dropKey
  allowKey true
  emit .blockEntry
  advance 1

/-- The question mark before a key. -/
def fetchKey : Scanning Unit := do
  beginIndicator .blockMapStart
  dropKey
  allowKey !(← get).inFlow
  emit .key
  advance 1

/-- The colon before a value. What was remembered as a possible key is one. -/
def fetchValue : Scanning Unit := do
  let s ← get
  match s.key? with
  | some k =>
    set (s.putAt k.position .key)
    openBlock k.start.column k.position .blockMapStart
    modify (·.setKey none)
    allowKey false
  | none =>
    beginIndicator .blockMapStart
    allowKey !s.inFlow
  emit .value
  advance 1

/-- An anchor or an alias. -/
def fetchAnchor (t : String → Token) : Scanning Unit := do
  saveKey
  allowKey false
  let (name, c) ← anchorName? ((← get).cursor.advance 1)
  emit (t name)
  moveTo c

/-- A tag. -/
def fetchTag : Scanning Unit := do
  saveKey
  allowKey false
  let s ← get
  let (t, c) ← tag? s.inFlow s.cursor
  emit t
  moveTo c

/-- A block of lines. -/
def fetchBlock (folds : Bool) : Scanning Unit := do
  dropKey
  allowKey true
  let s ← get
  let (text, c) ← block? folds s.indent s.cursor
  emit (.scalar text (if folds then .folded else .literal))
  moveTo c

/-- A quoted text. -/
def fetchQuoted (quote : Char) : Scanning Unit := do
  saveKey
  allowKey false
  let (text, c) ← quoted? quote (← get).cursor
  emit (.scalar text .quoted)
  moveTo c

/-- A plain text. -/
def fetchPlain : Scanning Unit := do
  saveKey
  allowKey false
  let s ← get
  let (text, c, broken) ← plain? s.inFlow (s.indent + 1).toNat s.cursor
  emit (.scalar text .plain)
  moveTo c
  if broken then allowKey true

/-- A plain text may begin here. -/
def plainBegins (inFlow : Bool) (text : List Char) : Bool :=
  match text with
  | [] => false
  | c :: rest =>
    !(isGapOrBreak c || "-?:,[]\x7b\x7d#&*!|>\x27\x22%@`".toList.contains c) ||
      (c = '-' && !rest.head?.any isGap) ||
      (!inFlow && (c = '?' || c = ':') && !endsWord rest)

/-- Scan one token, the scanner standing where it begins. -/
def fetch : Scanning Unit := do
  let s ← get
  let text := s.cursor.rest
  let atLineStart : Bool := s.cursor.column = 0
  match text with
  | [] => fetchStreamEnd
  | c :: rest =>
    if atLineStart && c = '%' then fetchDirective
    else if atLineStart && standsAlone ['-', '-', '-'] text then fetchDocumentMark .documentStart
    else if atLineStart && standsAlone ['.', '.', '.'] text then fetchDocumentMark .documentEnd
    else if c = '[' then fetchFlowStart .flowListStart
    else if c = '\x7b' then fetchFlowStart .flowMapStart
    else if c = ']' then fetchFlowEnd .flowListEnd
    else if c = '\x7d' then fetchFlowEnd .flowMapEnd
    else if c = ',' then fetchFlowEntry
    else if c = '-' && endsWord rest then fetchBlockEntry
    else if c = '?' && (s.inFlow || endsWord rest) then fetchKey
    else if c = ':' && (s.inFlow || endsWord rest) then fetchValue
    else if c = '*' then fetchAnchor .alias
    else if c = '&' then fetchAnchor .anchor
    else if c = '!' then fetchTag
    else if c = '|' && !s.inFlow then fetchBlock false
    else if c = '>' && !s.inFlow then fetchBlock true
    else if c = '\x27' || c = '\x22' then fetchQuoted c
    else if plainBegins s.inFlow text then fetchPlain
    else failure

/-- Scan the next token. -/
def next : Scanning Unit := do
  modify fun s => skipGaps (s.cursor.rest.length + 1) s
  dropStaleKeys
  closeBlocks (← get).cursor.column
  fetch

/-- Scan to the end, or up to where the text cannot be scanned. -/
def toEnd : Nat → Scanner → List Token
  | 0, s => s.certain
  | bound + 1, s =>
    match next.run s with
    | none => s.certain
    | some (_, s) => if s.tokens.head? = some .streamEnd then s.tokens.reverse else toEnd bound s

end Scanner

/-- The tokens of a text; none at all if it holds a character that no YAML text may hold. -/
def Token.scan (text : String) : List Token :=
  let cs := match text.toList with
    | '\ufeff' :: rest => rest
    | cs => cs
  if cs.all isAllowed then Scanner.toEnd (cs.length + 1) { cursor := { rest := cs } } else []

end Folio.Yaml
