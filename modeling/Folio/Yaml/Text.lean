import Folio.Yaml.Cursor

/-!
# The texts of YAML scalars

A scalar is written plain, between quotes, or as a block of lines. Where a plain or a quoted text goes over several
lines, its line ends are folded: a single one becomes a space, and of several the first is dropped. Blocks keep their
line ends, or fold those between lines that are not indented further.
-/

namespace Folio.Yaml

/-- A stretch of spaces and line ends inside a text. -/
structure Fold where
  spaces : List Char := []
  /-- The first line end. -/
  first? : Option Char := none
  /-- The line ends after the first. -/
  others : List Char := []
  /-- There was a line end. -/
  isBroken : Bool := false

namespace Fold

/-- What the stretch stands for in the text. -/
def text (f : Fold) : List Char :=
  if !f.isBroken then f.spaces
  else match f.first? with
    | some '\n' => if f.others.isEmpty then [' '] else f.others
    | some c => c :: f.others
    | none => f.others

/-- Read a stretch of spaces and line ends. Behind a line end no tab may stand before the column `margin`. -/
def read? (margin : Nat) : Nat → Fold → Cursor → Option (Fold × Cursor)
  | 0, f, c => some (f, c)
  | bound + 1, f, c =>
    match c.peek? with
    | none => some (f, c)
    | some char =>
      if isGap char then
        if f.isBroken && char = '\t' && c.column < margin then none
        else read? margin bound (if f.isBroken then f else { f with spaces := f.spaces ++ [char] }) (c.advance 1)
      else match c.nextLine? with
        | none => some (f, c)
        | some (kept, next) =>
          let f := if f.isBroken then { f with others := f.others ++ [kept] }
            else { f with first? := some kept, isBroken := true }
          read? margin bound f next

end Fold

/-! ## Quoted texts -/

/-- The character that a short escape stands for. -/
def shortEscape? : Char → Option Char
  | '0' => some '\x00'
  | 'a' => some '\x07'
  | 'b' => some '\x08'
  | 't' => some '\t'
  | '\t' => some '\t'
  | 'n' => some '\n'
  | 'v' => some '\x0b'
  | 'f' => some '\x0c'
  | 'r' => some '\r'
  | 'e' => some '\x1b'
  | ' ' => some ' '
  | '\x22' => some '\x22'
  | '/' => some '/'
  | '\x5c' => some '\x5c'
  | 'N' => some '\u0085'
  | '_' => some '\u00a0'
  | 'L' => some '\u2028'
  | 'P' => some '\u2029'
  | _ => none

/-- The number of digits of a numeric escape. -/
def escapeLength? : Char → Option Nat
  | 'x' => some 2
  | 'u' => some 4
  | 'U' => some 8
  | _ => none

/-- The value of a hexadecimal digit. -/
def hexDigit? (c : Char) : Option Nat :=
  if c.isDigit then some (c.toNat - '0'.toNat)
  else if 'a' ≤ c && c ≤ 'f' then some (c.toNat - 'a'.toNat + 10)
  else if 'A' ≤ c && c ≤ 'F' then some (c.toNat - 'A'.toNat + 10)
  else none

/-- The value of some hexadecimal digits. -/
def hexValue? (cs : List Char) : Option Nat :=
  cs.foldlM (fun n c => (hexDigit? c).map (n * 16 + ·)) 0

/-- The character of a code that is one. -/
def charOf? (code : Nat) : Option Char :=
  if code.isValidChar then some (Char.ofNat code) else none

/-- The character of an escape behind its backslash, and the number of characters that the escape takes. -/
def escape? : List Char → Option (Char × Nat)
  | [] => none
  | c :: rest =>
    match escapeLength? c with
    | some n => do
      let digits := rest.take n
      if digits.length ≠ n then failure
      return (← charOf? (← hexValue? digits), n + 1)
    | none => (shortEscape? c).map fun char => (char, 1)

/-- Read a quoted text behind its first quote; `seen` is what was read of it before, the latest first. -/
def quotedFrom? (quote : Char) : Nat → List Char → Cursor → Option (List Char × Cursor)
  | 0, _, _ => none
  | bound + 1, seen, c =>
    if c.column = 0 && atDocumentMark c.rest then none
    else match c.rest with
      | [] => none
      | char :: rest =>
        if char = quote then
          if quote = '\x27' && rest.head? = some '\x27' then quotedFrom? quote bound ('\x27' :: seen) (c.advance 2)
          else some (seen, c.advance 1)
        else if char = '\x5c' && quote = '\x22' then
          match (c.advance 1).nextLine? with
          | some (_, next) => do
            let (fold, c) ← Fold.read? 0 rest.length { isBroken := true } next
            quotedFrom? quote bound (fold.text.reverse ++ seen) c
          | none => do
            let (char, length) ← escape? rest
            quotedFrom? quote bound (char :: seen) (c.advance (length + 1))
        else if isGapOrBreak char then do
          let (fold, c) ← Fold.read? 0 c.rest.length {} c
          quotedFrom? quote bound (fold.text.reverse ++ seen) c
        else quotedFrom? quote bound (char :: seen) (c.advance 1)

/-- Read a quoted text, the cursor standing at the first quote. -/
def quoted? (quote : Char) (c : Cursor) : Option (String × Cursor) := do
  let (seen, c) ← quotedFrom? quote (c.rest.length + 1) [] (c.advance 1)
  return (String.ofList seen.reverse, c)

/-! ## Plain texts -/

/-- The characters that end a plain text between brackets. -/
def endsInFlow (c : Char) : Bool :=
  c = ',' || c = '[' || c = ']' || c = '\x7b' || c = '\x7d'

/-- A colon between brackets with one of these behind it has no meaning. -/
def isStrayColon (text : List Char) : Bool :=
  match text with
  | ':' :: c :: _ => endsInFlow c || c = '?'
  | _ => false

/-- A plain text ends here. -/
def plainEnds (inFlow : Bool) (text : List Char) : Bool :=
  match text with
  | [] => true
  | c :: rest => (c = ':' && endsWord rest) || (inFlow && endsInFlow c)

/-- Read the characters of a plain text up to a gap or its end. -/
def plainRun? (inFlow : Bool) : List Char → Option (List Char)
  | [] => some []
  | c :: rest =>
    if isGapOrBreak c then some []
    else if inFlow && isStrayColon (c :: rest) then none
    else if plainEnds inFlow (c :: rest) then some []
    else (plainRun? inFlow rest).map (c :: ·)

/-- Read a plain text; `seen` is what was read of it before, the latest first, and `pending` a gap behind that. The last
part of the result says whether the text ended behind a line end. -/
def plainFrom? (inFlow : Bool) (margin : Nat) :
    Nat → List Char → Fold → Cursor → Option (List Char × Cursor × Bool)
  | 0, _, _, _ => none
  | bound + 1, seen, pending, c =>
    if (c.column = 0 && atDocumentMark c.rest) || c.isAt '#' then some (seen, c, pending.isBroken)
    else do
      let run ← plainRun? inFlow c.rest
      let seen := if run.isEmpty then seen else run.reverse ++ (pending.text.reverse ++ seen)
      let pending := if run.isEmpty then pending else {}
      let c := c.advance run.length
      if !c.isAtKind isGapOrBreak then return (seen, c, pending.isBroken)
      else
        let (pending, c) ← Fold.read? margin c.rest.length pending c
        if !inFlow && c.column < margin then return (seen, c, pending.isBroken)
        else plainFrom? inFlow margin bound seen pending c

/-- Read a plain text. Outside brackets its lines begin at the column `margin` or behind it. -/
def plain? (inFlow : Bool) (margin : Nat) (c : Cursor) : Option (String × Cursor × Bool) := do
  let (seen, c, broken) ← plainFrom? inFlow margin (c.rest.length + 1) [] {} c
  return (String.ofList seen.reverse, c, broken)

/-! ## Blocks -/

/-- What becomes of the line ends at the end of a block. -/
inductive Chomping
  | strip
  | clip
  | keep
  deriving DecidableEq, Repr

/-- The head of a block: what becomes of its last line ends, and by how much it is indented if the head says so. -/
structure BlockHead where
  chomping : Chomping := .clip
  increment? : Option Nat := none

namespace BlockHead

/-- The chomping that a character asks for. -/
def chomping? : Char → Option Chomping
  | '+' => some .keep
  | '-' => some .strip
  | _ => none

/-- Read the head of a block behind its indicator; none if it asks for no indentation at all. -/
def read? (c : Cursor) : Option (BlockHead × Cursor) :=
  let digit? (c : Cursor) : Option (Option Nat × Cursor) :=
    match c.peek? with
    | some d =>
      if d = '0' then none
      else if d.isDigit then some (some (d.toNat - '0'.toNat), c.advance 1)
      else some (none, c)
    | none => some (none, c)
  match c.peek?.bind chomping? with
  | some chomping => (digit? (c.advance 1)).map fun (increment?, c) => ({ chomping, increment? }, c)
  | none => (digit? c).map fun (increment?, c') =>
    match if increment?.isSome then c'.peek?.bind chomping? else none with
    | some chomping => ({ chomping, increment? }, c'.advance 1)
    | none => ({ increment? }, c')

end BlockHead

/-- Go over empty lines and the indentation of the line after them. `indent?` is the indentation of the block if it is
known. The line ends, the cursor and the widest indentation seen are returned; a tab in an indentation is refused. -/
def blankLines? (indent? : Option Nat) : Nat → List Char → Nat → Cursor → Option (List Char × Nat × Cursor)
  | 0, seen, widest, c => some (seen, widest, c)
  | bound + 1, seen, widest, c =>
    let spaces := (c.rest.takeWhile (· = ' ')).length
    let c := c.advance (match indent? with | some indent => min spaces (indent - c.column) | none => spaces)
    let widest := max widest c.column
    if indent?.all (c.column < ·) && c.isAt '\t' then none
    else match c.nextLine? with
      | some (kept, next) => blankLines? indent? bound (seen ++ [kept]) widest next
      | none => some (seen, widest, c)

/-- The lines of a block as they are put together. -/
structure BlockText where
  /-- The text so far, the latest character first. -/
  seen : List Char := []
  /-- The end of the last line. -/
  lineEnd : List Char := []
  /-- The ends of the empty lines after it. -/
  empties : List Char := []
  /-- The last line begins with a space or a tab. -/
  isIndented : Bool := false

/-- The block with one more line. -/
def BlockText.add (b : BlockText) (folds : Bool) (line : List Char) (lineEnd : List Char) : BlockText :=
  let indented := line.head?.any isGap
  let between :=
    if folds && b.lineEnd = ['\n'] && !b.isIndented && !indented then
      if b.empties.isEmpty then [' '] else b.empties
    else b.lineEnd ++ b.empties
  { seen := line.reverse ++ (between.reverse ++ b.seen), lineEnd, isIndented := indented }

/-- Read the lines of a block, which are indented by `indent`. -/
def blockLines? (folds : Bool) (indent : Nat) : Nat → BlockText → Cursor → Option (BlockText × Cursor)
  | 0, b, c => some (b, c)
  | bound + 1, b, c =>
    if c.column = indent && !c.rest.isEmpty then do
      let (line, c) := c.span (!isBreak ·)
      let (lineEnd, next) := match c.nextLine? with
        | some (kept, next) => ([kept], next)
        | none => ([], c)
      let b := b.add folds line lineEnd
      let (empties, _, c) ← blankLines? (some indent) (next.rest.length + 1) [] 0 next
      blockLines? folds indent bound { b with empties } c
    else some (b, c)

/-- Read a block, the cursor standing at its indicator. `outer` is the indentation around it, if there is any. -/
def block? (folds : Bool) (outer : Int) (c : Cursor) : Option (String × Cursor) := do
  let (head, c) ← BlockHead.read? (c.advance 1)
  let c ← c.finishLine?
  let known? := head.increment?.map fun n => if 0 ≤ outer then outer.toNat + n else n
  let (empties, widest, c) ← blankLines? known? (c.rest.length + 1) [] 0 c
  let indent := known?.getD (max widest (max 1 (outer + 1).toNat))
  let (b, c) ← blockLines? folds indent (c.rest.length + 1) { empties } c
  let last := match head.chomping with
    | .strip => []
    | .clip => b.lineEnd
    | .keep => b.lineEnd ++ b.empties
  return (String.ofList (b.seen.reverse ++ last), c)

end Folio.Yaml
