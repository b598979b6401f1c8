/-!
# White space

The Unicode property `White_Space`, and the cuts it makes: trimming a text at its ends and splitting it into words.
-/

namespace Folio.Text

/-- White space: the twenty-five characters of the Unicode property `White_Space`. -/
def isBlank (c : Char) : Bool :=
  let n := c.toNat
  (9 ≤ n && n ≤ 13) || n = 32 || n = 0x85 || n = 0xA0 || n = 0x1680 || (0x2000 ≤ n && n ≤ 0x200A) ||
    n = 0x2028 || n = 0x2029 || n = 0x202F || n = 0x205F || n = 0x3000

/-- A text without the white space it begins with. -/
def trimStart (s : String) : String :=
  String.ofList (s.toList.dropWhile isBlank)

/-- A text without the white space it ends with. -/
def trimEnd (s : String) : String :=
  String.ofList (s.toList.reverse.dropWhile isBlank).reverse

/-- A text without the white space at either end. -/
def trim (s : String) : String :=
  trimEnd (trimStart s)

/-- Every character of the text is white space. -/
def isBlankText (s : String) : Bool :=
  s.toList.all isBlank

/-- The words of a text: its longest stretches without white space, in order. -/
def words : List Char → List (List Char)
  | [] => []
  | c :: rest =>
    if isBlank c then words rest
    else (c :: rest.takeWhile (!isBlank ·)) :: words (rest.dropWhile (!isBlank ·))
termination_by s => s.length
decreasing_by
  · simp
  · simpa using Nat.lt_succ_of_le (List.dropWhile_suffix _).length_le

end Folio.Text
