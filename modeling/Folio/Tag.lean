import Folio.Tag.Scan
import Folio.Keyed
import Folio.Text.Blank
import Folio.Text.Case

/-!
# Include tags

A tag asks for a view to be put in its place. Its body is a row of words:

* the first word is a name (`articles`), a kind and a name (`page=home`), or a kind alone (`type=head`), whose name may
  follow as `name=title`;
* `wrap=target` asks for the output to be wrapped;
* every other word is an attribute, `key=value` or a bare key.

Kinds and names are put in lower case. A tag with a blank body asks for nothing.
-/

namespace Folio

/-- A tag as it was read. -/
structure Tag where
  kind : String
  name : String := ""
  wrap : String := ""
  attributes : Keyed String := []
  /-- The tag as it stands in the document. -/
  raw : String := ""
  deriving DecidableEq, Repr, Inhabited

namespace Tag

/-- The kind of a tag that gives only a name. -/
def defaultKind : String := "template"

/-- A word cut at its first equals sign into key and value; a word without one is a key. -/
def keyValue (word : List Char) : String × Option String :=
  match Text.splitFirst? '=' word with
  | some (key, value) => (String.ofList key, some (String.ofList value))
  | none => (String.ofList word, none)

/-- What the first word of a body gives: the tag so far, and whether a name may follow. -/
def begin (raw : String) (word : List Char) : Tag × Bool :=
  match keyValue word with
  | (name, none) => ({ kind := defaultKind, name := Text.lower name, raw }, false)
  | (key, some value) =>
    let key := Text.lower key
    if key = "type" then ({ kind := Text.lower value, raw }, true)
    else ({ kind := key, name := Text.lower value, raw }, false)

/-- The tag with one more word of its body. -/
def addWord (nameFollows : Bool) (t : Tag) (word : List Char) : Tag :=
  match keyValue word with
  | ("wrap", some value) => { t with wrap := value }
  | (key, value) =>
    if key = "name" && value.isSome && nameFollows && t.name.isEmpty then
      { t with name := Text.lower (value.getD "") }
    else { t with attributes := Keyed.insert t.attributes key (value.getD "") }

/-- The tag that a raw tag stands for; none if its body is blank. -/
def decode? (r : Raw) : Option Tag :=
  match Text.words r.body with
  | [] => none
  | first :: rest =>
    let (t, nameFollows) := begin (String.ofList r.text) first
    some (rest.foldl (addWord nameFollows) t)

/-- Every tag of a document, in order. -/
def parseAll (document : String) : List Tag :=
  (scan document.toList).filterMap decode?

/-- The words that exclude tags: trimmed, in lower case, without the blank ones, in order and each once. -/
def exclusions (entries : List String) : List String :=
  let words := (entries.map fun e => Text.lower (Text.trim e)).filter (!·.isEmpty)
  (Keyed.ofEntries (words.map fun w => (w, ()))).map Prod.fst

/-- The tags whose kind and name are both not excluded. -/
def exclude (tags : List Tag) (excluded : List String) : List Tag :=
  tags.filter fun t => !excluded.contains t.kind && !excluded.contains t.name

/-- The tags of a document that are not excluded, in order. -/
def parse (document : String) (excluded : List String) : List Tag :=
  exclude (parseAll document) excluded

end Tag

end Folio
