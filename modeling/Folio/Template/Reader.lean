import Folio.Text.Find

/-!
# Readers

A reader takes what it reads from the front of a text and leaves the rest, or it does not apply and takes nothing.
Readers are put together in order by `do` and as alternatives by `<|>`, the first that applies being the one that
counts.
-/

namespace Folio.Template

/-- A reader of something at the front of a text. -/
abbrev Reader (α : Type) := StateT (List Char) Option α

namespace Reader

variable {α : Type}

/-- Read exactly this text. -/
def mark (s : String) : Reader Unit := fun text =>
  (Text.afterHead? s.toList text).map fun rest => ((), rest)

/-- Read one character of a kind. -/
def one (kind : Char → Bool) : Reader Char
  | [] => none
  | c :: rest => if kind c then some (c, rest) else none

/-- Read as many characters of a kind as there are. -/
def run (kind : Char → Bool) : Reader (List Char) := fun text =>
  some (text.takeWhile kind, text.dropWhile kind)

/-- Read at least one character of a kind, and as many as there are. -/
def run1 (kind : Char → Bool) : Reader (List Char) := do
  return (← one kind) :: (← run kind)

/-- Apply only where no character of a kind comes next. -/
def unlessNext (kind : Char → Bool) : Reader Unit := fun text =>
  match text with
  | [] => some ((), [])
  | c :: rest => if kind c then none else some ((), c :: rest)

/-- Read the text up to a character, and that character. -/
def upTo (close : Char) : Reader (List Char) := fun text =>
  Text.splitFirst? close text

/-- Read something if it is there. -/
def maybe (r : Reader α) : Reader (Option α) :=
  (some <$> r) <|> pure none

/-- Whether something is there; it is read if so. -/
def flag (r : Reader Unit) : Reader Bool :=
  (do r; return true) <|> pure false

/-- The readings of a text one after the other, as long as they apply and take something, and the rest. -/
def repeated (r : Reader α) (text : List Char) : List α × List Char :=
  match r text with
  | none => ([], text)
  | some (a, rest) =>
    if _h : rest.length < text.length then
      let (as, last) := repeated r rest
      (a :: as, last)
    else ([], text)
termination_by text.length

/-- Read something over and over, as often as it is there. -/
def many (r : Reader α) : Reader (List α) := fun text => some (repeated r text)

/-- The white space that may stand between the words of a tag. -/
def isSpace (c : Char) : Bool :=
  c = ' ' || c = '\t' || c = '\r' || c = '\n'

/-- Read the space between two words, if there is any. -/
def gap : Reader Unit := do
  let _ ← run isSpace

/-- Read space, of which there must be some. -/
def space : Reader Unit := do
  let _ ← run1 isSpace

/-- Read something behind any space. -/
def token (r : Reader α) : Reader α := do
  gap
  r

/-- The characters that a name begins with. -/
def isNameStart (c : Char) : Bool :=
  ('a' ≤ c && c ≤ 'z') || ('A' ≤ c && c ≤ 'Z') || c = '_'

/-- The characters that a name goes on with. -/
def isNameChar (c : Char) : Bool :=
  isNameStart c || c.isDigit

/-- Read a name. -/
def name : Reader String := do
  return String.ofList ((← one isNameStart) :: (← run isNameChar))

/-- Read a word that is no part of a longer name. -/
def word (s : String) : Reader Unit := do
  mark s
  unlessNext isNameChar

/-- Read a text between quotes of one kind. There are no escapes. -/
def quoted : Reader String := do
  let q ← one fun c => c = '\x22' || c = '\x27' || c = '\x60'
  return String.ofList (← upTo q)

end Reader

end Folio.Template
