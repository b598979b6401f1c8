import Folio.Text.CaseTable

/-!
# Letter case

Uppercase and lowercase forms of texts. The forms are the full ones: the uppercase of a character may have several
characters (`ß` gives `SS`), and a capital sigma at the end of a word has a lowercase form of its own. Beside them stand
the maps that touch ASCII letters only.
-/

namespace Folio.Text

/-- The code lies in one of the inclusive ranges. -/
def inRanges (ranges : List (Nat × Nat)) (code : Nat) : Bool :=
  ranges.any fun r => r.1 ≤ code && code ≤ r.2

/-- The uppercase form of a character. -/
def upperChar (c : Char) : List Char :=
  if c.toNat < 128 then [c.toUpper]
  else match upperExpansions.lookup c.toNat with
    | some codes => codes.map Char.ofNat
    | none => match upperRuns.findSome? (·.image? c.toNat) with
      | some code => [Char.ofNat code]
      | none => [c]

/-- The lowercase form of a character that stands alone. -/
def lowerChar (c : Char) : List Char :=
  if c.toNat < 128 then [c.toLower]
  else if c.toNat = 0x130 then ['i', '\u0307']
  else match lowerRuns.findSome? (·.image? c.toNat) with
    | some code => [Char.ofNat code]
    | none => [c]

/-- Going along the characters, the first that is not case-ignorable is cased. -/
def reachesCased : List Char → Bool
  | [] => false
  | c :: rest => if inRanges caseIgnorableRanges c.toNat then reachesCased rest else inRanges casedRanges c.toNat

/-- The lowercase form of a text, `before` being the characters that stand before it, the nearest first. A capital sigma
that ends a word becomes a final sigma. -/
def lowerAfter (before : List Char) : List Char → List Char
  | [] => []
  | c :: rest =>
    let form :=
      if c = 'Σ' then
        if reachesCased before && !reachesCased rest then ['ς'] else ['σ']
      else lowerChar c
    form ++ lowerAfter (c :: before) rest

/-- The lowercase form of a text. -/
def lower (s : String) : String :=
  String.ofList (lowerAfter [] s.toList)

/-- The uppercase form of a text. -/
def upper (s : String) : String :=
  String.ofList (s.toList.flatMap upperChar)

/-- A text with its first character in uppercase form and the rest untouched. -/
def capitalize (s : String) : String :=
  match s.toList with
  | [] => ""
  | c :: rest => String.ofList (upperChar c ++ rest)

/-- A text with its ASCII letters in lower case and the rest untouched. -/
def lowerAscii (s : String) : String :=
  String.ofList (s.toList.map Char.toLower)

/-- Two texts are equal but for the case of ASCII letters. -/
def eqIgnoringCase (a b : String) : Bool :=
  lowerAscii a = lowerAscii b

end Folio.Text
