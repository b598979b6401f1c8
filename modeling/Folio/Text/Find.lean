/-!
# Finding and replacing

Occurrences of one text in another, read from the left. Replacement takes the occurrences in order, each beginning where
the one before ended.
-/

namespace Folio.Text

/-- What follows `pattern` in a text that begins with it. -/
def afterHead? : (pattern text : List Char) → Option (List Char)
  | [], text => some text
  | _ :: _, [] => none
  | p :: pattern, c :: text => if p = c then afterHead? pattern text else none

/-- A text that begins with a pattern is the pattern and what follows. -/
theorem afterHead?_eq_some_iff {pattern text rest : List Char} :
    afterHead? pattern text = some rest ↔ text = pattern ++ rest := by
  induction pattern generalizing text with
  | nil => simp [afterHead?]
  | cons p pattern ih =>
    cases text with
    | nil => simp [afterHead?]
    | cons c text =>
      by_cases h : p = c
      · simp [afterHead?, h, ih]
      · simp [afterHead?, h, Ne.symm h]

/-- What follows a pattern is no longer than the text. -/
theorem length_of_afterHead? {pattern text rest : List Char} (h : afterHead? pattern text = some rest) :
    rest.length + pattern.length = text.length := by
  rw [afterHead?_eq_some_iff.mp h]
  simp [Nat.add_comm]

/-- The pattern occurs in the text. -/
def occurs (pattern : List Char) : List Char → Bool
  | [] => (afterHead? pattern []).isSome
  | c :: text => (afterHead? pattern (c :: text)).isSome || occurs pattern text

/-- The text with every occurrence of a pattern that is not empty replaced. -/
def replaceIn (pattern replacement : List Char) : List Char → List Char
  | [] => []
  | c :: text =>
    match _h : afterHead? pattern (c :: text) with
    | some rest =>
      if _hp : pattern = [] then c :: text
      else replacement ++ replaceIn pattern replacement rest
    | none => c :: replaceIn pattern replacement text
termination_by text => text.length
decreasing_by
  · have := length_of_afterHead? ‹_›
    have := List.length_pos_iff.mpr ‹_›
    omega
  · simp

/-- The pattern occurs in the text. -/
def contains (text pattern : String) : Bool :=
  occurs pattern.toList text.toList

/-- The text with every occurrence of the pattern replaced; the empty pattern occurs before each character and at the
end. -/
def replaceAll (text pattern replacement : String) : String :=
  if pattern.toList = [] then
    String.ofList (text.toList.foldr (fun c rest => replacement.toList ++ c :: rest) replacement.toList)
  else String.ofList (replaceIn pattern.toList replacement.toList text.toList)

/-- The two sides of the first occurrence of a character. -/
def splitFirst? (mark : Char) : List Char → Option (List Char × List Char)
  | [] => none
  | c :: rest =>
    if c = mark then some ([], rest)
    else (splitFirst? mark rest).map fun (before, after) => (c :: before, after)

/-- The stretches of a text between the occurrences of a character. -/
def splitAll (mark : Char) : List Char → List (List Char)
  | [] => [[]]
  | c :: rest =>
    if c = mark then [] :: splitAll mark rest
    else match splitAll mark rest with
      | [] => [[c]]
      | first :: others => (c :: first) :: others

end Folio.Text
