import Folio.Tag

/-!
# Tags occur where they are found

`occurs_iff` reads the search for a text as an occurrence in it. Every tag of a document carries its own text as it stands
there (`raw_of_decode?`), so a document holds the text of each of its tags (`contains_of_mem_parse`).
-/

namespace Folio

namespace Text

/-- A pattern can be taken off a text exactly when the text begins with it. -/
theorem isSome_afterHead?_iff (pattern text : List Char) : (afterHead? pattern text).isSome = true ↔ pattern <+: text := by
  rw [Option.isSome_iff_exists]
  constructor
  · rintro ⟨rest, h⟩
    exact ⟨rest, (afterHead?_eq_some_iff.mp h).symm⟩
  · rintro ⟨rest, h⟩
    exact ⟨rest, afterHead?_eq_some_iff.mpr h.symm⟩

/-- The search finds a pattern exactly where it stands somewhere in the text. -/
theorem occurs_iff (pattern text : List Char) : occurs pattern text = true ↔ pattern <:+: text := by
  induction text with
  | nil =>
    simp only [occurs, isSome_afterHead?_iff, List.prefix_nil, List.infix_nil]
  | cons c text ih =>
    simp only [occurs, Bool.or_eq_true, isSome_afterHead?_iff, ih, List.infix_cons_iff]

theorem contains_iff (text pattern : String) : contains text pattern = true ↔ pattern.toList <:+: text.toList :=
  occurs_iff _ _

end Text

namespace Tag

/-- A word of the body leaves the text of the tag alone. -/
theorem raw_addWord (nameFollows : Bool) (t : Tag) (word : List Char) : (addWord nameFollows t word).raw = t.raw := by
  unfold addWord
  split
  · rfl
  · split <;> rfl

/-- The first word of the body leaves the text of the tag alone. -/
theorem raw_begin (raw : String) (word : List Char) : (begin raw word).1.raw = raw := by
  unfold begin
  split
  · rfl
  · dsimp only
    split <;> rfl

theorem raw_foldl_addWord (nameFollows : Bool) (t : Tag) (words : List (List Char)) :
    (words.foldl (addWord nameFollows) t).raw = t.raw := by
  induction words generalizing t with
  | nil => rfl
  | cons word rest ih => rw [List.foldl_cons, ih, raw_addWord]

/-- A tag carries its own text. -/
theorem raw_of_decode? {w : Raw} {t : Tag} (h : decode? w = some t) : t.raw = String.ofList w.text := by
  unfold decode? at h
  split at h
  · cases h
  · rw [Option.some.injEq] at h
    rw [← h, raw_foldl_addWord, raw_begin]

/-- A tag of a text stands in it. -/
theorem infix_of_mem_scan {text : List Char} {w : Raw} (h : w ∈ scan text) : w.text <:+: text := by
  obtain ⟨⟨gap, w'⟩, hp, rfl⟩ := List.mem_map.mp h
  obtain ⟨front, back, hsplit⟩ := List.append_of_mem hp
  refine ⟨front.flatMap (fun p => p.1 ++ p.2.text) ++ gap,
    back.flatMap (fun p => p.1 ++ p.2.text) ++ (pieces text).2, ?_⟩
  have hflat := flatten_pieces text
  rw [hsplit, List.flatMap_append, List.flatMap_cons] at hflat
  simpa only [List.append_assoc] using hflat

/-- The tag that a raw tag asks for, if it asks for one that is not excluded. -/
def wanted? (excluded : List String) (w : Raw) : Option Tag :=
  (decode? w).filter fun t => !excluded.contains t.kind && !excluded.contains t.name

theorem wanted?_eq_some_iff {excluded : List String} {w : Raw} {t : Tag} :
    wanted? excluded w = some t ↔ decode? w = some t ∧ t.kind ∉ excluded ∧ t.name ∉ excluded := by
  simp [wanted?, Option.filter_eq_some_iff]

/-- Without exclusions every tag with a body is wanted. -/
theorem wanted?_nil (w : Raw) : wanted? [] w = decode? w := by
  cases h : decode? w <;> simp [wanted?, h]

/-- The tags of a document are what its raw tags ask for, in order. -/
theorem parse_eq (document : String) (excluded : List String) :
    parse document excluded = (scan document.toList).filterMap (wanted? excluded) := by
  unfold parse parseAll exclude
  rw [List.filter_filterMap]
  rfl

theorem mem_parse_iff {document : String} {excluded : List String} {t : Tag} :
    t ∈ parse document excluded ↔ ∃ w ∈ scan document.toList, wanted? excluded w = some t := by
  rw [parse_eq, List.mem_filterMap]

/-- A document holds the text of each of its tags. -/
theorem contains_of_mem_parse {document : String} {excluded : List String} {t : Tag} (h : t ∈ parse document excluded) :
    Text.contains document t.raw = true := by
  obtain ⟨w, hw, ht⟩ := mem_parse_iff.mp h
  rw [Text.contains_iff, raw_of_decode? (wanted?_eq_some_iff.mp ht).1, String.toList_ofList]
  exact infix_of_mem_scan hw

end Tag

end Folio
