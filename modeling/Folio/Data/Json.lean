import Folio.Data
import Folio.Decimal.Layout

/-!
# Data as JSON text

The compact form has no white space; the indented form puts every item and every field on a line of its own, two spaces
deeper than what holds it. A text is quoted with the short escapes where JSON has one, and `\u` escapes for the other
control characters.
-/

namespace Folio.Data

/-- A hexadecimal digit in lower case. -/
def hexDigit (n : Nat) : Char :=
  Nat.digitChar n

/-- One character inside a quoted text. -/
def quotedChar (c : Char) : List Char :=
  match c.toNat with
  | 0x22 => ['\x5c', '\x22']
  | 0x5c => ['\x5c', '\x5c']
  | 0x08 => ['\x5c', 'b']
  | 0x09 => ['\x5c', 't']
  | 0x0a => ['\x5c', 'n']
  | 0x0c => ['\x5c', 'f']
  | 0x0d => ['\x5c', 'r']
  | n => if n < 0x20 then ['\x5c', 'u', '0', '0', hexDigit (n / 16), hexDigit (n % 16)] else [c]

/-- A text in quotes. -/
def quoted (s : String) : String :=
  String.ofList ('\x22' :: (s.toList.flatMap quotedChar ++ ['\x22']))

mutual

/-- The value on one line, without white space. -/
def compact : Data → String
  | null => "null"
  | bool b => if b then "true" else "false"
  | int n => Decimal.intText n
  | float bits => Decimal.Layout.data.floatText bits
  | text s => quoted s
  | list items => "[" ++ String.intercalate "," (compactItems items) ++ "]"
  | object fields => "\x7b" ++ String.intercalate "," (compactFields fields) ++ "\x7d"

/-- The items of a list, each on one line. -/
def compactItems : List Data → List String
  | [] => []
  | item :: rest => compact item :: compactItems rest

/-- The fields of an object, each on one line. -/
def compactFields : List (String × Data) → List String
  | [] => []
  | (key, value) :: rest => (quoted key ++ ":" ++ compact value) :: compactFields rest

end

/-- A bracketed group: its parts on lines of their own, `indent` being where the group stands. -/
def group (opening closing : String) (indent : String) (parts : List String) : String :=
  if parts.isEmpty then opening ++ closing
  else
    let lines := parts.map fun part => indent ++ "  " ++ part
    opening ++ "\n" ++ String.intercalate ",\n" lines ++ "\n" ++ indent ++ closing

mutual

/-- The value over several lines, `indent` being where it stands. -/
def indented (indent : String) : Data → String
  | list items => group "[" "]" indent (indentedItems (indent ++ "  ") items)
  | object fields => group "\x7b" "\x7d" indent (indentedFields (indent ++ "  ") fields)
  | other => compact other

/-- The items of a list over several lines. -/
def indentedItems (indent : String) : List Data → List String
  | [] => []
  | item :: rest => indented indent item :: indentedItems indent rest

/-- The fields of an object over several lines. -/
def indentedFields (indent : String) : List (String × Data) → List String
  | [] => []
  | (key, value) :: rest => (quoted key ++ ": " ++ indented indent value) :: indentedFields indent rest

end

end Folio.Data
