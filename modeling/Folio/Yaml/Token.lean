import Folio.Decode.Scalar

/-!
# YAML tokens

The tokens that a YAML text is made of. Blocks, which a text shows by its indentation, have tokens for their beginning
and their end.
-/

namespace Folio.Yaml

/-- A token. -/
inductive Token
  | streamEnd
  | versionDirective (major minor : Nat)
  | tagDirective (handle expansion : String)
  | documentStart
  | documentEnd
  | blockListStart
  | blockMapStart
  | blockEnd
  | flowListStart
  | flowListEnd
  | flowMapStart
  | flowMapEnd
  /-- A dash before an item. -/
  | blockEntry
  /-- A comma. -/
  | flowEntry
  /-- What follows is a key. -/
  | key
  /-- What follows is a value. -/
  | value
  | alias (name : String)
  | anchor (name : String)
  | tag (handle suffix : String)
  | scalar (text : String) (style : Decode.Style)
  deriving DecidableEq, Repr, Inhabited

end Folio.Yaml
