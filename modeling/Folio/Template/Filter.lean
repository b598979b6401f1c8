import Folio.Text.Blank
import Folio.Text.Case
import Folio.Text.Find
import Folio.Template.Value

/-!
# Filters

What the filters of templates make of a value. A filter that does not exist, that is given a value of the wrong kind or
that lacks an argument has no result.
-/

namespace Folio.Template

/-- A filter on texts. -/
def onText (f : String → Data) : Data → Option Data
  | .text s => some (f s)
  | _ => none

/-- The number of characters, items or fields. -/
def lengthOf : Data → Option Data
  | .text s => some (.int s.length)
  | .list items => some (.int items.length)
  | .object fields => some (.int fields.length)
  | _ => none

/-- The first item of a list; an empty text if there is none. -/
def firstOf : Data → Option Data
  | .list items => some (items.head?.getD (.text ""))
  | _ => none

/-- A separator with the two spellings of control characters that it may hold replaced. -/
def separator (s : String) : String :=
  Text.replaceAll (Text.replaceAll s "\\n" "\n") "\\t" "\t"

/-- The items of a list as one text. -/
def joinedItems (v : Data) (separator? : Option Data) : Option Data := do
  let items ← v.list?
  let between ← match separator? with
    | none => some ""
    | some d => d.text?.map separator
  return .text (String.intercalate between (Data.shownItems items))

/-- A text with every occurrence of another replaced. -/
def replacedText (v : Data) (old? new? : Option Data) : Option Data := do
  let s ← v.text?
  let old ← old?.bind Data.text?
  let new ← new?.bind Data.text?
  return .text (Text.replaceAll s old new)

/-- What a filter of a given name makes of a value. -/
def filtered (name : String) (v : Data) (arguments : Keyed Data) : Option Data :=
  if name = "length" then lengthOf v
  else if name = "upper" then onText (.text ∘ Text.upper) v
  else if name = "lower" then onText (.text ∘ Text.lower) v
  else if name = "trim" then onText (.text ∘ Text.trim) v
  else if name = "escape" then onText (.text ∘ escaped) v
  else if name = "first" then firstOf v
  else if name = "join" then joinedItems v (arguments.get? "sep")
  else if name = "replace" then replacedText v (arguments.get? "from") (arguments.get? "to")
  else none

end Folio.Template
