import Folio.Text.Find

/-!
# Finding include tags

An include tag is `<include`, in any case, up to the nearest `/>` after it. `cut?` takes a text apart at its first
tag, and `pieces` all the way: `flatten_pieces` says that the pieces put together again are the text.
-/

namespace Folio.Tag

/-- How a tag begins, in lower case. -/
def opening : List Char := ['<', 'i', 'n', 'c', 'l', 'u', 'd', 'e']

/-- How a tag ends. -/
def closing : List Char := ['/', '>']

/-- A text that begins as a tag does, cut behind that beginning: the beginning as it is written, and the rest. -/
def open? (text : List Char) : Option (List Char × List Char) :=
  let (head, rest) := text.splitAt opening.length
  if head.map Char.toLower = opening then some (head, rest) else none

/-- A text cut behind the first end of a tag in it: what stands before that end, and what follows it. -/
def close? : List Char → Option (List Char × List Char)
  | [] => none
  | c :: text =>
    match Text.afterHead? closing (c :: text) with
    | some rest => some ([], rest)
    | none => (close? text).map fun (body, rest) => (c :: body, rest)

/-- A tag as it stands in a text: the beginning as written, and the body between beginning and end. -/
structure Raw where
  head : List Char
  body : List Char
  deriving DecidableEq, Repr

/-- The whole text of a tag. -/
def Raw.text (r : Raw) : List Char :=
  r.head ++ r.body ++ closing

/-- A text taken apart at its first tag: what stands before the tag, the tag, and what follows it. -/
def cut? : List Char → Option (List Char × Raw × List Char)
  | [] => none
  | c :: text =>
    match open? (c :: text) with
    | some (head, rest) =>
      match close? rest with
      | some (body, rest) => some ([], ⟨head, body⟩, rest)
      | none => none
    | none => (cut? text).map fun (gap, tag, rest) => (c :: gap, tag, rest)

theorem eq_of_open? {text head rest : List Char} (h : open? text = some (head, rest)) :
    text = head ++ rest ∧ head.map Char.toLower = opening := by
  simp only [open?, List.splitAt_eq] at h
  split at h
  · rename_i hmap
    simp only [Option.some.injEq, Prod.mk.injEq] at h
    obtain ⟨rfl, rfl⟩ := h
    exact ⟨(List.take_append_drop _ _).symm, hmap⟩
  · simp at h

theorem eq_of_close? {text body rest : List Char} (h : close? text = some (body, rest)) :
    text = body ++ closing ++ rest := by
  induction text generalizing body with
  | nil => simp [close?] at h
  | cons c text ih =>
    simp only [close?] at h
    split at h
    · rename_i rest' heq
      simp only [Option.some.injEq, Prod.mk.injEq] at h
      obtain ⟨rfl, rfl⟩ := h
      simpa using Text.afterHead?_eq_some_iff.mp heq
    · obtain ⟨⟨body', rest'⟩, hclose, heq⟩ := Option.map_eq_some_iff.mp h
      simp only [Prod.mk.injEq] at heq
      obtain ⟨rfl, rfl⟩ := heq
      simpa using ih hclose

/-- The parts of a cut put together again are the text. -/
theorem eq_of_cut? {text gap rest : List Char} {tag : Raw} (h : cut? text = some (gap, tag, rest)) :
    text = gap ++ tag.text ++ rest := by
  induction text generalizing gap with
  | nil => simp [cut?] at h
  | cons c text ih =>
    simp only [cut?] at h
    split at h
    · rename_i head rest' hopen
      split at h
      · rename_i body rest'' hclose
        simp only [Option.some.injEq, Prod.mk.injEq] at h
        obtain ⟨rfl, rfl, rfl⟩ := h
        rw [(eq_of_open? hopen).1, eq_of_close? hclose]
        simp [Raw.text]
      · simp at h
    · obtain ⟨⟨gap', tag', rest'⟩, hcut, heq⟩ := Option.map_eq_some_iff.mp h
      simp only [Prod.mk.injEq] at heq
      obtain ⟨rfl, rfl, rfl⟩ := heq
      simpa using ih hcut

/-- What follows a tag is shorter than the text. -/
theorem length_of_cut? {text gap rest : List Char} {tag : Raw} (h : cut? text = some (gap, tag, rest)) :
    rest.length < text.length := by
  rw [eq_of_cut? h]
  simp only [Raw.text, closing, List.length_append, List.length_cons]
  omega

/-- A text as its tags, each with what stands before it, and what stands behind the last. -/
def pieces (text : List Char) : List (List Char × Raw) × List Char :=
  match _h : cut? text with
  | some (gap, tag, rest) =>
    let (tags, last) := pieces rest
    ((gap, tag) :: tags, last)
  | none => ([], text)
termination_by text.length
decreasing_by exact length_of_cut? ‹_›

/-- The pieces put together again are the text. -/
theorem flatten_pieces (text : List Char) :
    (pieces text).1.flatMap (fun p => p.1 ++ p.2.text) ++ (pieces text).2 = text := by
  fun_induction pieces text with
  | case1 text gap tag rest hcut tags last heq ih =>
    simp only [heq] at ih
    simp only [List.flatMap_cons, List.append_assoc]
    rw [eq_of_cut? hcut, ih]
    simp
  | case2 text _ => simp

/-- The tags of a text, in order. -/
def scan (text : List Char) : List Raw :=
  (pieces text).1.map Prod.snd

end Folio.Tag
