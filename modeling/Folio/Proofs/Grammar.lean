import Folio.Proofs.Blocks

/-!
# The grammar of tags

`Parts` says in which way a text is made of tags, without saying how they are looked for: a tag begins as tags do, in any case,
and the first end of a tag behind that beginning is its own; what stands in front of a tag holds no beginning of a tag, and
what stands behind the last holds none that an end follows. Every text is so made in exactly one way, the one that `pieces`
finds (`parts_iff`), and the tags of a document are what these tags ask for (`parse_parts`).
-/

namespace Folio

namespace Text

/-- A text without words is white space. -/
theorem words_eq_nil_iff {text : List Char} : words text = [] ↔ ∀ c ∈ text, isBlank c = true := by
  fun_induction words text with
  | case1 => simp
  | case2 c rest hc ih => simp [ih, hc]
  | case3 c rest hc ih => simp [hc]

end Text

namespace Tag

/-- The text holds the beginning of a tag, in any case. -/
def Opens (text : List Char) : Prop :=
  ∃ before head after, text = before ++ head ++ after ∧ head.map Char.toLower = opening

/-- The text holds the beginning of a tag, in any case, and somewhere behind it the end of one. -/
def OpensAndCloses (text : List Char) : Prop :=
  ∃ before head between after, text = before ++ head ++ between ++ closing ++ after ∧ head.map Char.toLower = opening

/-- A tag begins as tags do, in any case, and the first end of a tag behind that beginning is its own. -/
structure Raw.Proper (w : Raw) : Prop where
  head : w.head.map Char.toLower = opening
  first : ∀ before after, w.body ++ closing = before ++ closing ++ after → after = []

/-- A text is made of tags, each behind a text of its own, and of a text behind the last. -/
structure Parts (text : List Char) (tags : List (List Char × Raw)) (last : List Char) : Prop where
  whole : tags.flatMap (fun p => p.1 ++ p.2.text) ++ last = text
  proper : ∀ p ∈ tags, p.2.Proper
  gaps : ∀ p ∈ tags, ¬ Opens p.1
  ending : ¬ OpensAndCloses last

/-! ## Ends of tags -/

/-- The first end of a tag behind a body is the one that follows it exactly if the body holds none. -/
theorem first_closing_iff {body : List Char} :
    (∀ before after, body ++ closing = before ++ closing ++ after → after = []) ↔ ¬ closing <:+: body := by
  constructor
  · rintro hfirst ⟨before, after, rfl⟩
    have hnil := hfirst before (after ++ closing) (by simp)
    simp [closing] at hnil
  · intro hbody before after heq
    -- an end that is not the last would lie in the body, as it cannot share a character with the last
    rcases List.eq_nil_or_concat after with hnil | ⟨after', c, rfl⟩
    · exact hnil
    · have hsplit : (body ++ ['/']) ++ ['>'] = (before ++ closing ++ after') ++ [c] := by simpa [closing] using heq
      obtain ⟨hslash, -⟩ := List.append_inj' hsplit rfl
      rcases List.eq_nil_or_concat after' with rfl | ⟨after'', d, rfl⟩
      · have hend : body ++ ['/'] = (before ++ ['/']) ++ ['>'] := by simpa [closing] using hslash
        obtain ⟨-, hbad⟩ := List.append_inj' hend rfl
        cases hbad
      · have hend : body ++ ['/'] = (before ++ closing ++ after'') ++ [d] := by simpa using hslash
        obtain ⟨hinside, -⟩ := List.append_inj' hend rfl
        exact absurd ⟨before, after'', hinside.symm⟩ hbody

/-- What is cut off at the first end of a tag holds no end of a tag. -/
theorem not_infix_of_close? {text body rest : List Char} (h : close? text = some (body, rest)) : ¬ closing <:+: body := by
  induction text generalizing body with
  | nil => cases h
  | cons c text ih =>
    rw [close?] at h
    split at h
    · rw [Option.some.injEq, Prod.mk.injEq] at h
      rw [← h.1]
      simp [closing]
    · rename_i hhead
      obtain ⟨⟨body', rest'⟩, hclose, heq⟩ := Option.map_eq_some_iff.mp h
      rw [Prod.mk.injEq] at heq
      obtain ⟨rfl, rfl⟩ := heq
      rw [List.infix_cons_iff]
      rintro (hfront | hinside)
      · have htext : closing <+: c :: text := by
          rw [eq_of_close? hclose, List.append_assoc, ← List.cons_append]
          exact hfront.trans (List.prefix_append _ _)
        rw [← Text.isSome_afterHead?_iff, hhead] at htext
        cases htext
      · exact ih hclose hinside

/-- An end of a tag is found wherever one stands. -/
theorem isSome_close?_iff {text : List Char} : (close? text).isSome = true ↔ closing <:+: text := by
  induction text with
  | nil => simp [close?, closing]
  | cons c text ih =>
    rw [List.infix_cons_iff, ← ih, ← Text.isSome_afterHead?_iff, close?]
    split
    · simp [*]
    · simp [*]

/-- The first end of a tag is the one behind a body that holds none. -/
theorem close?_eq_some_iff {text body rest : List Char} :
    close? text = some (body, rest) ↔ text = body ++ closing ++ rest ∧ ¬ closing <:+: body := by
  constructor
  · intro h
    exact ⟨eq_of_close? h, not_infix_of_close? h⟩
  · rintro ⟨rfl, hbody⟩
    obtain ⟨⟨body', rest'⟩, h⟩ : ∃ found, close? (body ++ closing) = some found :=
      Option.isSome_iff_exists.mp (isSome_close?_iff.mpr ⟨body, [], by simp⟩)
    have hend : rest' = [] := first_closing_iff.mpr hbody body' rest' (eq_of_close? h)
    have heq := eq_of_close? h
    rw [hend, List.append_nil] at heq
    rw [← List.append_cancel_right heq] at h
    exact close?_append h rest

/-! ## The first tag of a text -/

/-- The two sides of the beginning of a tag. -/
theorem open?_eq_some_iff {text head rest : List Char} :
    open? text = some (head, rest) ↔ text = head ++ rest ∧ head.map Char.toLower = opening := by
  constructor
  · exact eq_of_open?
  · rintro ⟨rfl, hhead⟩
    exact open?_append hhead rest

theorem length_of_opening {head : List Char} (h : head.map Char.toLower = opening) : head.length = opening.length := by
  rw [← h, List.length_map]

theorem ne_nil_of_opening {head : List Char} (h : head.map Char.toLower = opening) : head ≠ [] := by
  rintro rfl
  cases h

/-- A text that is opened is cut behind the first end of a tag in the rest. -/
theorem cut?_of_open? {text head rest : List Char} (h : open? text = some (head, rest)) :
    cut? text = (close? rest).map fun (body, rest) => ([], ⟨head, body⟩, rest) := by
  obtain ⟨rfl, hhead⟩ := eq_of_open? h
  obtain ⟨c, head, rfl⟩ := List.exists_cons_of_ne_nil (ne_nil_of_opening hhead)
  rw [List.cons_append] at h ⊢
  rw [cut?, h]
  cases hclose : close? rest <;> simp [hclose]

/-- A text that is not opened is cut where what follows its first character is. -/
theorem cut?_of_open?_none {c : Char} {text : List Char} (h : open? (c :: text) = none) :
    cut? (c :: text) = (cut? text).map fun (gap, w, rest) => (c :: gap, w, rest) := by
  rw [cut?, h]

/-- A text in front of a tag in which nothing is opened does not open a tag together with it. -/
theorem open?_append_eq_none {gap : List Char} {w : Raw} (hgap : ¬ Opens gap) (hne : gap ≠ [])
    (hw : w.head.map Char.toLower = opening) (rest : List Char) : open? (gap ++ (w.text ++ rest)) = none := by
  rw [← Option.not_isSome_iff_eq_none, Option.isSome_iff_exists]
  rintro ⟨⟨head, rest'⟩, hopen⟩
  obtain ⟨heq, hhead⟩ := open?_eq_some_iff.mp hopen
  rcases List.append_eq_append_iff.mp heq with ⟨overlap, rfl, hover⟩ | ⟨after, rfl, -⟩
  · cases overlap with
    | nil => exact hgap ⟨[], gap, [], by simp, by simpa using hhead⟩
    | cons c overlap =>
      -- the beginning would have the mark that tags begin with once more inside
      have hc : c.toLower = '<' := by
        obtain ⟨d, head', hd⟩ := List.exists_cons_of_ne_nil (ne_nil_of_opening hw)
        rw [hd] at hw
        rw [Raw.text, hd] at hover
        have hdc : d = c := (List.cons.inj hover).1
        rw [← hdc]
        exact (List.cons.inj hw).1
      obtain ⟨b, gap', rfl⟩ := List.exists_cons_of_ne_nil hne
      have hinside : '<' ∈ opening.tail := by
        rw [← hhead]
        simp [hc]
      exact absurd hinside (by decide)
  · exact hgap ⟨[], head, after, by simp, hhead⟩

/-- The first tag of a text is a proper one behind a text that opens none. -/
theorem cut?_eq_some_iff {text gap rest : List Char} {w : Raw} :
    cut? text = some (gap, w, rest) ↔ text = gap ++ w.text ++ rest ∧ w.Proper ∧ ¬ Opens gap := by
  constructor
  · intro h
    obtain ⟨hhead, hbody⟩ := head_and_body_of_cut? h
    refine ⟨eq_of_cut? h, ⟨hhead, first_closing_iff.mpr (not_infix_of_close? (hbody []))⟩, ?_⟩
    rintro ⟨before, head, after, rfl, hopen⟩
    have hne : head ++ after ≠ [] := fun hnil => ne_nil_of_opening hopen (List.append_eq_nil_iff.mp hnil).1
    have hnone := open?_gap h hne ⟨before, by simp⟩
    rw [List.append_assoc, open?_append hopen] at hnone
    cases hnone
  · rintro ⟨rfl, hw, hgap⟩
    have hbody := first_closing_iff.mp hw.first
    induction gap with
    | nil =>
      have hopen : open? ([] ++ w.text ++ rest) = some (w.head, w.body ++ closing ++ rest) :=
        open?_eq_some_iff.mpr ⟨by simp [Raw.text], hw.head⟩
      rw [cut?_of_open? hopen, close?_eq_some_iff.mpr ⟨rfl, hbody⟩]
      rfl
    | cons c gap ih =>
      have hrest : ¬ Opens gap := by
        rintro ⟨before, head, after, rfl, hhead⟩
        exact hgap ⟨c :: before, head, after, by simp, hhead⟩
      have hnone := open?_append_eq_none hgap (List.cons_ne_nil c gap) hw.head rest
      rw [← List.append_assoc, List.cons_append, List.cons_append] at hnone
      rw [List.cons_append, List.cons_append, cut?_of_open?_none hnone, ih hrest]
      rfl

/-- Where a beginning and an end behind it stand in a text that is opened, an end follows that opening. -/
theorem infix_of_open? {before head between after head' rest : List Char} (hhead : head.map Char.toLower = opening)
    (h : open? (before ++ head ++ between ++ closing ++ after) = some (head', rest)) : closing <:+: rest := by
  obtain ⟨heq, hhead'⟩ := eq_of_open? h
  have hsplit : (before ++ head) ++ (between ++ closing ++ after) = head' ++ rest := by simpa using heq
  rcases List.append_eq_append_iff.mp hsplit with ⟨overlap, hover, hrest⟩ | ⟨overlap, -, rfl⟩
  · -- the opening reaches no further than the beginning, as both have the same length
    have hlen := congrArg List.length hover
    simp only [List.length_append, length_of_opening hhead, length_of_opening hhead'] at hlen
    obtain rfl : overlap = [] := List.eq_nil_of_length_eq_zero (by omega)
    exact ⟨between, after, by simpa using hrest⟩
  · exact ⟨overlap ++ between, after, by simp⟩

/-- A text has no tag exactly if no end of a tag follows a beginning in it. -/
theorem cut?_eq_none_iff {text : List Char} : cut? text = none ↔ ¬ OpensAndCloses text := by
  constructor
  · rintro h ⟨before, head, between, after, rfl, hhead⟩
    induction before with
    | nil =>
      have hopen : open? ([] ++ head ++ between ++ closing ++ after) = some (head, between ++ closing ++ after) :=
        open?_eq_some_iff.mpr ⟨by simp, hhead⟩
      rw [cut?_of_open? hopen, Option.map_eq_none_iff, ← Option.not_isSome_iff_eq_none, isSome_close?_iff] at h
      exact h (infix_of_open? hhead hopen)
    | cons c before ih =>
      rcases hopen : open? (c :: before ++ head ++ between ++ closing ++ after) with _ | ⟨head', rest⟩
      · simp only [List.cons_append] at h hopen
        rw [cut?_of_open?_none hopen, Option.map_eq_none_iff] at h
        exact ih h
      · rw [cut?_of_open? hopen, Option.map_eq_none_iff, ← Option.not_isSome_iff_eq_none, isSome_close?_iff] at h
        exact h (infix_of_open? hhead hopen)
  · intro hnot
    rw [← Option.not_isSome_iff_eq_none, Option.isSome_iff_exists]
    rintro ⟨⟨gap, w, rest⟩, h⟩
    obtain ⟨rfl, hw, -⟩ := cut?_eq_some_iff.mp h
    exact hnot ⟨gap, w.head, w.body, rest, by simp [Raw.text], hw.head⟩

/-! ## The tags of a text -/

theorem pieces_of_cut? {text gap rest : List Char} {w : Raw} (h : cut? text = some (gap, w, rest)) :
    pieces text = ((gap, w) :: (pieces rest).1, (pieces rest).2) := by
  rw [pieces]
  split
  · rename_i gap' w' rest' h'
    rw [h, Option.some.injEq, Prod.mk.injEq, Prod.mk.injEq] at h'
    obtain ⟨rfl, rfl, rfl⟩ := h'
    rfl
  · rename_i h'
    rw [h] at h'
    cases h'

theorem pieces_of_cut?_none {text : List Char} (h : cut? text = none) : pieces text = ([], text) := by
  rw [pieces]
  split
  · rename_i h'
    rw [h] at h'
    cases h'
  · rfl

/-- A text is made of its pieces. -/
theorem parts_pieces (text : List Char) : Parts text (pieces text).1 (pieces text).2 := by
  induction text using pieces.induct with
  | case1 text gap w rest hcut tags last heq ih =>
    obtain ⟨-, hw, hgap⟩ := cut?_eq_some_iff.mp hcut
    have hwhole := flatten_pieces text
    rw [pieces_of_cut? hcut] at hwhole ⊢
    refine ⟨hwhole, ?_, ?_, ih.ending⟩
    · intro p hp
      rcases List.mem_cons.mp hp with rfl | hp
      · exact hw
      · exact ih.proper p hp
    · intro p hp
      rcases List.mem_cons.mp hp with rfl | hp
      · exact hgap
      · exact ih.gaps p hp
  | case2 text hcut =>
    rw [pieces_of_cut?_none hcut]
    exact ⟨by simp, by simp, by simp, cut?_eq_none_iff.mp hcut⟩

/-- A text is made of its pieces and in no other way. -/
theorem parts_iff {text last : List Char} {tags : List (List Char × Raw)} :
    Parts text tags last ↔ pieces text = (tags, last) := by
  constructor
  · intro h
    induction tags generalizing text with
    | nil =>
      have hwhole : last = text := h.whole
      rw [← hwhole]
      exact pieces_of_cut?_none (cut?_eq_none_iff.mpr h.ending)
    | cons p tags ih =>
      have hrest := ih ⟨rfl, fun q hq => h.proper q (List.mem_cons_of_mem _ hq),
        fun q hq => h.gaps q (List.mem_cons_of_mem _ hq), h.ending⟩
      have hcut : cut? text = some (p.1, p.2, tags.flatMap (fun p => p.1 ++ p.2.text) ++ last) := by
        refine cut?_eq_some_iff.mpr ⟨?_, h.proper p List.mem_cons_self, h.gaps p List.mem_cons_self⟩
        rw [← h.whole, List.flatMap_cons, List.append_assoc]
      rw [pieces_of_cut? hcut, hrest]
  · intro h
    have hparts := parts_pieces text
    rw [h] at hparts
    exact hparts

/-- A proper tag that stands alone is read as itself. -/
theorem scan_text {w : Raw} (hw : w.Proper) : scan w.text = [w] := by
  have hempty : ¬ Opens [] := by
    rintro ⟨before, head, after, heq, hhead⟩
    simp [ne_nil_of_opening hhead] at heq
  have hlast : ¬ OpensAndCloses [] := by
    rintro ⟨before, head, between, after, heq, hhead⟩
    simp [ne_nil_of_opening hhead] at heq
  have hparts : Parts w.text [([], w)] [] :=
    ⟨by simp, by simpa using hw, by simpa using hempty, hlast⟩
  rw [scan, parts_iff.mp hparts]
  rfl

/-- A tag asks for nothing exactly if its body is white space. -/
theorem decode?_eq_none_iff {w : Raw} : decode? w = none ↔ ∀ c ∈ w.body, Text.isBlank c = true := by
  rw [← Text.words_eq_nil_iff, decode?]
  split <;> simp [*]

/-- A proper tag that stands alone asks for what it asks for anywhere. -/
theorem parse_text {w : Raw} (hw : w.Proper) : parse (String.ofList w.text) [] = (decode? w).toList := by
  rw [parse_eq, String.toList_ofList, scan_text hw, List.filterMap_cons, wanted?_nil]
  cases decode? w <;> rfl

/-- A document is made of tags in exactly one way, and its tags are read in order, each as often as it stands there. Those with
a blank body ask for nothing, and every other one carries its own text and is read again, alone, from that text. -/
theorem parse_parts (document : String) :
    ∃ tags last, Parts document.toList tags last ∧
      (∀ tags' last', Parts document.toList tags' last' → tags' = tags ∧ last' = last) ∧
      parse document [] = (tags.map Prod.snd).filterMap decode? ∧
      (∀ p ∈ tags, (decode? p.2 = none ↔ ∀ c ∈ p.2.body, Text.isBlank c = true) ∧
        ∀ t, decode? p.2 = some t → t.raw = String.ofList p.2.text) ∧
      ∀ t ∈ parse document [], parse t.raw [] = [t] := by
  have hparts := parts_pieces document.toList
  have hparse : parse document [] = ((pieces document.toList).1.map Prod.snd).filterMap decode? := by
    rw [parse_eq, funext wanted?_nil]
    rfl
  refine ⟨_, _, hparts, ?_, hparse, ?_, ?_⟩
  · intro tags' last' h
    have heq := parts_iff.mp h
    rw [heq]
    exact ⟨rfl, rfl⟩
  · intro p _
    exact ⟨decode?_eq_none_iff, fun t ht => raw_of_decode? ht⟩
  · intro t ht
    rw [hparse] at ht
    obtain ⟨w, hw, hdecode⟩ := List.mem_filterMap.mp ht
    obtain ⟨p, hp, rfl⟩ := List.mem_map.mp hw
    rw [raw_of_decode? hdecode, parse_text (hparts.proper p hp), hdecode]
    rfl

/-- The beginning of a tag inside another is a word of its body. -/
example : parse "<include <include a /> />" [] =
    [{ kind := "template", name := "<include", attributes := [("a", "")], raw := "<include <include a />" }] := by
  decide +kernel

end Tag

end Folio
