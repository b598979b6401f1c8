import Folio.Template.Phrase

/-!
# Pieces of a template

A template is first read as a row of pieces: texts, values to be put out, and the tags of loops and conditions, which
are put together in `Folio.Template.Node`. A piece that is no text says on which sides white space is to be removed.
-/

namespace Folio.Template

/-- On which sides of a tag the white space of the neighbouring texts is removed. -/
structure Margins where
  left : Bool := false
  right : Bool := false
  deriving DecidableEq, Repr, Inhabited

/-- A piece of a template. -/
inductive Piece
  | text (s : String)
  | comment (margins : Margins)
  /-- A text that is not looked into, between two tags. -/
  | raw (opening : Margins) (s : String) (closing : Margins)
  | output (margins : Margins) (e : Expr)
  | assign (margins : Margins) (name : String) (e : Expr)
  | insert (margins : Margins) (name : String)
  | condOpen (margins : Margins) (test : Expr)
  | condNext (margins : Margins) (test : Expr)
  | otherwise (margins : Margins)
  | condClose (margins : Margins)
  | loopOpen (margins : Margins) (key? : Option String) (value : String) (collection : Expr)
  | loopClose (margins : Margins)

namespace Reader

/-- Read the beginning of a tag. -/
def opening (s : String) : Reader Bool := do
  mark s
  flag (mark "-")

/-- Read the end of a tag. -/
def closing (s : String) : Reader Bool := do
  let trims ← flag (mark "-")
  mark s
  return trims

/-- Read a tag, `inner` being read between its ends. -/
def between {α : Type} (start stop : String) (inner : Reader α) : Reader (Margins × α) := do
  let left ← opening start
  let a ← token inner
  let right ← token (closing stop)
  return ({ left, right }, a)

/-- Read a tag of statements. -/
def statement {α : Type} (inner : Reader α) : Reader (Margins × α) :=
  between "\x7b%" "%\x7d" inner

/-- A text up to where a reader applies, what that reader read there, and the rest. -/
def before? {α : Type} (stop : Reader α) : List Char → Option (List Char × α × List Char)
  | [] => (stop []).map fun (a, rest) => ([], a, rest)
  | c :: text =>
    match stop (c :: text) with
    | some (a, rest) => some ([], a, rest)
    | none => (before? stop text).map fun (skipped, a, rest) => (c :: skipped, a, rest)

/-- Read up to where a reader applies, and what it reads. -/
def reach {α : Type} (stop : Reader α) : Reader (List Char × α) := fun text =>
  (before? stop text).map fun (skipped, a, rest) => ((skipped, a), rest)

end Reader

open Reader

namespace Piece

/-- A template looks for tags where a brace is followed by one of these. -/
def opensTag (c : Char) : Bool :=
  c = '\x7b' || c = '%' || c = '#'

/-- A text cut where the first tag may begin. -/
def plainText : List Char → List Char × List Char
  | [] => ([], [])
  | [c] => ([c], [])
  | c :: d :: rest =>
    if c = '\x7b' && opensTag d then ([], c :: d :: rest)
    else
      let (before, after) := plainText (d :: rest)
      (c :: before, after)

/-- Read text up to the next tag, of which there must be some. -/
def readText : Reader Piece := fun text =>
  match plainText text with
  | ([], _) => none
  | (before, after) => some (.text (String.ofList before), after)

/-- Read a comment. -/
def readComment : Reader Piece := do
  let left ← opening "\x7b#"
  let (_, right) ← reach (closing "#\x7d")
  return .comment { left, right }

/-- Read a text that is not looked into. -/
def readRaw : Reader Piece := do
  let (first, _) ← statement (mark "raw")
  let (inner, last, _) ← reach (statement (mark "endraw"))
  return .raw first (String.ofList inner) last

/-- Read a value to be put out. -/
def readOutput : Reader Piece := do
  let (margins, e) ← between "\x7b\x7b" "\x7d\x7d" expression
  return .output margins e

/-- Read a statement with an expression behind its word. -/
def readTest (word : String) (piece : Margins → Expr → Piece) : Reader Piece := do
  let (margins, e) ← statement (do keyword word; expression)
  return piece margins e

/-- Read a statement that is only a word. -/
def readWord (word : String) (piece : Margins → Piece) : Reader Piece := do
  let (margins, _) ← statement (mark word)
  return piece margins

/-- Read the name of a template behind a word. -/
def readName (word : String) (piece : Margins → String → Piece) : Reader Piece := do
  let (margins, name) ← statement (do keyword word; quoted)
  return piece margins name

/-- Read an assignment. -/
def readAssign : Reader Piece := do
  let (margins, name, e) ← statement (do
    keyword "set"
    let name ← name
    token (mark "=")
    return (name, ← token expression))
  return .assign margins name e

/-- Read the head of a loop. -/
def readLoop : Reader Piece := do
  let (margins, first, second, e) ← statement (do
    keyword "for"
    let first ← name
    let second ← maybe (do token (mark ","); token name)
    space
    keyword "in"
    return (first, second, ← container))
  return match second with
    | none => .loopOpen margins none first e
    | some value => .loopOpen margins (some first) value e

/-- Read the next piece. -/
def read : Reader Piece :=
  readText <|> readComment <|> readRaw <|> readOutput <|> readTest "if" .condOpen <|> readTest "elif" .condNext <|>
    readWord "else" .otherwise <|> readWord "endif" .condClose <|> readLoop <|> readWord "endfor" .loopClose <|>
    readAssign <|> readName "include" .insert

/-- The pieces of a text, if all of it can be read. -/
def readAll (text : List Char) : Option (List Piece) :=
  match repeated read text with
  | (pieces, []) => some pieces
  | _ => none

/-- Read the name of the template that a template extends. -/
def readParent : Reader String := do
  let (_, name) ← statement (do keyword "extends"; quoted)
  return name

end Piece

end Folio.Template
