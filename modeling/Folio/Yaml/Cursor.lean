/-!
# Places in a YAML text

A cursor stands in a text and knows its line and column, from which indentation is told. A line may end in a carriage
return, a line feed or both, or in one of the line separators of Unicode. The end of the text counts wherever a line end
does.
-/

namespace Folio.Yaml

/-- A YAML text may hold this character. -/
def isAllowed (c : Char) : Bool :=
  let n := c.toNat
  n = 0x09 || n = 0x0A || n = 0x0D || (0x20 ≤ n && n ≤ 0x7E) || n = 0x85 || (0xA0 ≤ n && n ≤ 0xD7FF) ||
    (0xE000 ≤ n && n ≤ 0xFFFD) || 0x10000 ≤ n

/-- The character ends a line. -/
def isBreak (c : Char) : Bool :=
  c = '\n' || c = '\r' || c = '\u0085' || c = '\u2028' || c = '\u2029'

/-- A space or a tab. -/
def isGap (c : Char) : Bool :=
  c = ' ' || c = '\t'

/-- A space, a tab or the end of a line. -/
def isGapOrBreak (c : Char) : Bool :=
  isGap c || isBreak c

/-- The characters of names: those of anchors, directives and the handles of tags. -/
def isNameChar (c : Char) : Bool :=
  c.isAlphanum || c = '_' || c = '-'

/-- A text ends, or begins with a space, a tab or a line end. -/
def endsWord : List Char → Bool
  | [] => true
  | c :: _ => isGapOrBreak c

/-- A text begins with a mark that stands alone. -/
def standsAlone (mark : List Char) (text : List Char) : Bool :=
  mark.isPrefixOf text && endsWord (text.drop mark.length)

/-- A text begins with a mark between documents. -/
def atDocumentMark (text : List Char) : Bool :=
  standsAlone ['-', '-', '-'] text || standsAlone ['.', '.', '.'] text

/-- A place in a text: what is left of it, and where it is. -/
structure Cursor where
  rest : List Char
  index : Nat := 0
  line : Nat := 0
  column : Nat := 0
  deriving Inhabited

namespace Cursor

/-- The character at the cursor. -/
def peek? (c : Cursor) : Option Char := c.rest.head?

/-- The character at the cursor is this one. -/
def isAt (c : Cursor) (char : Char) : Bool := c.rest.head? = some char

/-- The character at the cursor is of a kind. -/
def isAtKind (c : Cursor) (kind : Char → Bool) : Bool := c.rest.head?.any kind

/-- The cursor some characters further on the same line. -/
def advance (c : Cursor) (count : Nat) : Cursor :=
  { c with rest := c.rest.drop count, index := c.index + count, column := c.column + count }

/-- The characters of a kind that come next, and the cursor behind them. -/
def span (c : Cursor) (kind : Char → Bool) : List Char × Cursor :=
  let run := c.rest.takeWhile kind
  (run, c.advance run.length)

/-- The cursor behind the characters of a kind that come next. -/
def skip (c : Cursor) (kind : Char → Bool) : Cursor := (c.span kind).2

/-- The line end at the cursor, as a text keeps it, and the cursor on the next line. -/
def nextLine? (c : Cursor) : Option (Char × Cursor) :=
  match c.rest with
  | '\r' :: '\n' :: rest => some ('\n', { rest, index := c.index + 2, line := c.line + 1 })
  | char :: rest =>
    if isBreak char then
      some (if char = '\u2028' || char = '\u2029' then char else '\n',
        { rest, index := c.index + 1, line := c.line + 1 })
    else none
  | [] => none

/-- The cursor at the end of the line that it stands on. -/
def toLineEnd (c : Cursor) : Cursor := c.skip (!isBreak ·)

/-- The cursor behind a comment, if one begins here. -/
def skipComment (c : Cursor) : Cursor := if c.isAt '#' then c.toLineEnd else c

/-- The cursor on the next line; none if something else than spaces and a comment is left on this one. -/
def finishLine? (c : Cursor) : Option Cursor :=
  let c := (c.skip isGap).skipComment
  match c.nextLine? with
  | some (_, next) => some next
  | none => if c.rest.isEmpty then some c else none

end Cursor

end Folio.Yaml
