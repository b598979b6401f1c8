import Folio.Text.Width

/-!
# Quoted texts in messages

A text as a message shows it: in double quotes, with backslash escapes for quotes, backslashes, the common control
characters, and a braced code for every other character that has no glyph.
-/

namespace Folio.Text

/-- Characters without a glyph of their own, beside those that take no column, as inclusive ranges: controls, separators,
private use, signs that enclose digits, and marks that go on from the letter before. -/
def glyphlessRanges : List (Nat × Nat) := [
  (0x0, 0x1F), (0x7F, 0xA0), (0xAD, 0xAD), (0x600, 0x605), (0x6DD, 0x6DD), (0x70F, 0x70F), (0x890, 0x891),
  (0x8E2, 0x8E2), (0x9BE, 0x9BE), (0x9D7, 0x9D7), (0xB3E, 0xB3E), (0xB57, 0xB57), (0xBBE, 0xBBE), (0xBD7, 0xBD7),
  (0xCC2, 0xCC2), (0xCD5, 0xCD6), (0xD3E, 0xD3E), (0xD57, 0xD57), (0xDCF, 0xDCF), (0xDDF, 0xDDF), (0x1680, 0x1680),
  (0x1B35, 0x1B35), (0x2000, 0x200F), (0x2028, 0x202F), (0x205F, 0x206F), (0x3000, 0x3000), (0x302E, 0x302F),
  (0xE000, 0xF8FF), (0xFF9E, 0xFF9F), (0xFFF0, 0xFFFB), (0xFFFE, 0xFFFF), (0x110BD, 0x110BD), (0x110CD, 0x110CD),
  (0x1133E, 0x1133E), (0x11357, 0x11357), (0x114B0, 0x114B0), (0x114BD, 0x114BD), (0x115AF, 0x115AF),
  (0x11930, 0x11930), (0x1D165, 0x1D165), (0x1D16E, 0x1D172), (0xE0000, 0x10FFFF)]

/-- Characters that take no column and yet have a glyph: the inner letters of Hangul syllables. -/
def innerLetterRanges : List (Nat × Nat) := [(0x1160, 0x11FF), (0x3164, 0x3164), (0xFFA0, 0xFFA0)]

/-- The character of a code has a glyph of its own. -/
def hasGlyph (code : Nat) : Bool :=
  !inRanges glyphlessRanges code && (!inRanges zeroWidthRanges code || inRanges innerLetterRanges code)

/-- One character of a quoted text. -/
def escaped (c : Char) : List Char :=
  match c.toNat with
  | 0x00 => ['\x5c', '0']
  | 0x09 => ['\x5c', 't']
  | 0x0a => ['\x5c', 'n']
  | 0x0d => ['\x5c', 'r']
  | 0x22 => ['\x5c', '\x22']
  | 0x5c => ['\x5c', '\x5c']
  | n =>
    if hasGlyph n then [c] else ['\x5c', 'u', '\x7b'] ++ Nat.toDigits 16 n ++ ['\x7d']

/-- A text in double quotes. -/
def inQuotes (s : String) : String :=
  String.ofList ('\x22' :: (s.toList.flatMap escaped ++ ['\x22']))

end Folio.Text
