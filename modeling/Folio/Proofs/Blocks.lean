import Folio.Proofs.Occurrence

/-!
# Texts in blocks

A text without anything that could become a tag is `Quiet`, and a tag that stands for itself wherever it is put is `Whole`.
Put together from such blocks, a text has exactly the tags that went into it (`scan_flat`), it holds the text of a tag exactly
if that is one of them (`occurs_flat`), and replacing the text of a tag is replacing the tag (`replaceIn_flat`). A text is
`Closed` when nothing in it or at the end of its stretches can become a tag; read in lower case, as tags are, it is then made
of blocks (`Closed.blocks`).
-/

namespace Folio

namespace Tag

/-- A text begins as a tag does, as far as it goes. -/
def Begins (text : List Char) : Prop :=
  (text.take opening.length).map Char.toLower <+: opening

/-- No end of the text begins as a tag does. -/
def Quiet (text : List Char) : Prop :=
  ∀ u, u ≠ [] → u <:+ text → ¬ Begins u

/-- A tag ends with its own end whatever follows it, and nothing behind its first character begins as a tag does. -/
structure Whole (w : Raw) : Prop where
  head : w.head.map Char.toLower = opening
  body : ∀ rest, close? (w.body ++ closing ++ rest) = some (w.body, rest)
  tail : Quiet w.text.tail

theorem begins_of_append {u v : List Char} (h : Begins (u ++ v)) : Begins u := by
  unfold Begins at h ⊢
  rw [List.take_append, List.map_append] at h
  exact (List.prefix_append _ _).trans h

/-- Behind a beginning as it is written comes whatever comes. -/
theorem open?_append {head : List Char} (h : head.map Char.toLower = opening) (rest : List Char) :
    open? (head ++ rest) = some (head, rest) := by
  have hlen : opening.length = head.length := by rw [← h, List.length_map]
  unfold open?
  rw [List.splitAt_eq, hlen, List.take_left, List.drop_left]
  exact if_pos h

/-- Only what begins as a tag does can be opened as one. -/
theorem begins_of_open? {text : List Char} (h : (open? text).isSome = true) : Begins text := by
  obtain ⟨⟨head, rest⟩, h⟩ := Option.isSome_iff_exists.mp h
  obtain ⟨rfl, hhead⟩ := eq_of_open? h
  have hlen : opening.length = head.length := by rw [← hhead, List.length_map]
  unfold Begins
  rw [hlen, List.take_left]
  exact ⟨[], by rw [List.append_nil, hhead]⟩

/-- What is cut off at the first end of a tag is cut off there whatever follows. -/
theorem close?_append {text body rest : List Char} (h : close? text = some (body, rest)) (rest' : List Char) :
    close? (body ++ closing ++ rest') = some (body, rest') := by
  induction text generalizing body with
  | nil => cases h
  | cons c text ih =>
    rw [close?] at h
    split at h
    · rw [Option.some.injEq, Prod.mk.injEq] at h
      rw [← h.1]
      rfl
    · rename_i hhead
      obtain ⟨⟨body', rest''⟩, hclose, heq⟩ := Option.map_eq_some_iff.mp h
      rw [Prod.mk.injEq] at heq
      obtain ⟨rfl, rfl⟩ := heq
      have htext := eq_of_close? hclose
      have hhead' : Text.afterHead? closing (c :: (body' ++ closing ++ rest')) = none := by
        rw [htext] at hhead
        cases body' with
        | nil => simp [Text.afterHead?, closing]
        | cons d body' => simpa [Text.afterHead?, closing] using hhead
      rw [List.cons_append, List.cons_append, close?, hhead', ih hclose]
      rfl

namespace Quiet

theorem tail {c : Char} {s : List Char} (h : Quiet (c :: s)) : Quiet s :=
  fun u hne hsuffix => h u hne (hsuffix.trans (List.suffix_cons c s))

/-- Nothing that begins with a quiet text can be opened as a tag. -/
theorem open?_eq_none {c : Char} {s : List Char} (h : Quiet (c :: s)) (rest : List Char) :
    open? (c :: (s ++ rest)) = none := by
  rw [← Option.not_isSome_iff_eq_none]
  intro hopen
  exact h (c :: s) (List.cons_ne_nil c s) (List.suffix_refl _) (begins_of_append (begins_of_open? hopen))

/-- The first tag is looked for behind a quiet text. -/
theorem cut?_append {s : List Char} (h : Quiet s) (rest : List Char) :
    cut? (s ++ rest) = (cut? rest).map fun (gap, w, rest) => (s ++ gap, w, rest) := by
  induction s with
  | nil => simp
  | cons c s ih =>
    rw [List.cons_append, cut?, h.open?_eq_none, ih h.tail, Option.map_map]
    rfl

end Quiet

namespace Whole

/-- A whole tag is the first of a text that begins with it. -/
theorem cut?_append {w : Raw} (h : Whole w) (rest : List Char) : cut? (w.text ++ rest) = some ([], w, rest) := by
  have hopen : open? (w.text ++ rest) = some (w.head, w.body ++ closing ++ rest) := by
    have hsplit : w.text ++ rest = w.head ++ (w.body ++ closing ++ rest) := by simp [Raw.text]
    rw [hsplit]
    exact open?_append h.head _
  obtain ⟨c, text, htext⟩ : ∃ c text, w.text ++ rest = c :: text := by
    cases hhead : w.head with
    | nil =>
      have hbad := h.head
      rw [hhead] at hbad
      cases hbad
    | cons c head => exact ⟨c, head ++ w.body ++ closing ++ rest, by simp [Raw.text, hhead]⟩
  rw [htext] at hopen ⊢
  rw [cut?, hopen]
  dsimp only
  rw [h.body rest]

/-- A text that begins with a whole tag begins with no other. -/
theorem eq_of_prefix {w w' : Raw} (h : Whole w) (h' : Whole w') {rest : List Char} (hp : w.text <+: w'.text ++ rest) :
    w = w' := by
  obtain ⟨rest', hp⟩ := hp
  have hcut := h.cut?_append rest'
  rw [hp, h'.cut?_append, Option.some.injEq, Prod.mk.injEq, Prod.mk.injEq] at hcut
  exact hcut.2.1.symm

theorem text_ne_nil {w : Raw} : w.text ≠ [] := by
  simp [Raw.text, closing]

end Whole

/-! ## Scanning -/

theorem scan_of_cut? {text gap rest : List Char} {w : Raw} (h : cut? text = some (gap, w, rest)) :
    scan text = w :: scan rest := by
  unfold scan
  rw [pieces]
  split
  · rename_i gap' w' rest' h'
    rw [h, Option.some.injEq, Prod.mk.injEq, Prod.mk.injEq] at h'
    obtain ⟨-, rfl, rfl⟩ := h'
    rfl
  · rename_i h'
    rw [h] at h'
    cases h'

theorem scan_of_cut?_none {text : List Char} (h : cut? text = none) : scan text = [] := by
  unfold scan
  rw [pieces]
  split
  · rename_i h'
    rw [h] at h'
    cases h'
  · rfl

/-- A quiet text in front adds no tags. -/
theorem Quiet.scan_append {s : List Char} (h : Quiet s) (rest : List Char) : scan (s ++ rest) = scan rest := by
  have hcut := h.cut?_append rest
  cases hrest : cut? rest with
  | none =>
    rw [hrest] at hcut
    rw [scan_of_cut?_none hcut, scan_of_cut?_none hrest]
  | some found =>
    rw [hrest] at hcut
    rw [scan_of_cut? hcut, scan_of_cut? hrest]

/-- A whole tag in front adds itself. -/
theorem Whole.scan_append {w : Raw} (h : Whole w) (rest : List Char) : scan (w.text ++ rest) = w :: scan rest :=
  scan_of_cut? (h.cut?_append rest)

/-! ## Searching and replacing -/

/-- The text of a whole tag is not found at any character of a quiet text. -/
theorem Quiet.afterHead?_eq_none {w : Raw} (hw : Whole w) {c : Char} {s : List Char} (h : Quiet (c :: s))
    (rest : List Char) : Text.afterHead? w.text (c :: (s ++ rest)) = none := by
  rw [← Option.not_isSome_iff_eq_none, Text.isSome_afterHead?_iff]
  rintro ⟨rest', hp⟩
  have hopen : open? (w.text ++ rest') = some (w.head, w.body ++ closing ++ rest') := by
    rw [Raw.text, List.append_assoc, List.append_assoc, List.append_assoc]
    exact open?_append hw.head _
  rw [hp, h.open?_eq_none] at hopen
  cases hopen

theorem Quiet.occurs_append {w : Raw} (hw : Whole w) {s : List Char} (h : Quiet s) (rest : List Char) :
    Text.occurs w.text (s ++ rest) = Text.occurs w.text rest := by
  induction s with
  | nil => rfl
  | cons c s ih =>
    rw [List.cons_append, Text.occurs, h.afterHead?_eq_none hw, ih h.tail]
    rfl

theorem Quiet.replaceIn_append {w : Raw} (hw : Whole w) (new : List Char) {s : List Char} (h : Quiet s)
    (rest : List Char) : Text.replaceIn w.text new (s ++ rest) = s ++ Text.replaceIn w.text new rest := by
  induction s with
  | nil => rfl
  | cons c s ih =>
    rw [List.cons_append, Text.replaceIn]
    split
    · rename_i rest' hfound
      rw [h.afterHead?_eq_none hw] at hfound
      cases hfound
    · rw [ih h.tail, List.cons_append]

/-- At a whole tag, the text of a whole tag is found exactly if it is the same one. -/
theorem Whole.afterHead?_text {w w' : Raw} (h : Whole w) (h' : Whole w') (rest : List Char) :
    Text.afterHead? w.text (w'.text ++ rest) = if w' = w then some rest else none := by
  split
  · rename_i heq
    rw [heq]
    exact Text.afterHead?_eq_some_iff.mpr rfl
  · rename_i hne
    rw [← Option.not_isSome_iff_eq_none, Text.isSome_afterHead?_iff]
    intro hp
    exact hne (h.eq_of_prefix h' hp).symm

theorem Whole.text_eq_cons (w : Raw) : ∃ c, w.text = c :: w.text.tail := by
  cases htext : w.text with
  | nil => simp [Raw.text, closing] at htext
  | cons c s => exact ⟨c, rfl⟩

theorem Whole.occurs_append {w w' : Raw} (h : Whole w) (h' : Whole w') (rest : List Char) :
    Text.occurs w.text (w'.text ++ rest) = (decide (w' = w) || Text.occurs w.text rest) := by
  obtain ⟨c, hc⟩ := Whole.text_eq_cons w'
  have hhead := h.afterHead?_text h' rest
  rw [hc, List.cons_append] at hhead ⊢
  rw [Text.occurs, hhead, h'.tail.occurs_append h]
  split <;> simp [*]

theorem Whole.replaceIn_append {w w' : Raw} (h : Whole w) (h' : Whole w') (new rest : List Char) :
    Text.replaceIn w.text new (w'.text ++ rest) =
      (if w' = w then new else w'.text) ++ Text.replaceIn w.text new rest := by
  obtain ⟨c, hc⟩ := Whole.text_eq_cons w'
  have hhead := h.afterHead?_text h' rest
  rw [hc, List.cons_append] at hhead ⊢
  rw [Text.replaceIn]
  split
  · rename_i rest' hfound
    rw [hhead] at hfound
    split at hfound
    · rename_i heq
      rw [Option.some.injEq] at hfound
      rw [if_pos heq, dif_neg, hfound]
      rw [← heq, hc]
      exact List.cons_ne_nil _ _
    · cases hfound
  · rename_i hfound
    rw [hhead] at hfound
    split at hfound
    · cases hfound
    · rename_i hne
      rw [if_neg hne, h'.tail.replaceIn_append h new rest]
      rfl

/-! ## Blocks -/

/-- A stretch of a text: characters, or a tag. -/
inductive Block
  | plain (s : List Char)
  | tag (w : Raw)
  deriving DecidableEq

namespace Block

/-- The text of a block. -/
def text : Block → List Char
  | plain s => s
  | tag w => w.text

/-- The tag that a block is. -/
def raw? : Block → Option Raw
  | plain _ => none
  | tag w => some w

/-- A block has the tag that it is and no other. -/
def Sound : Block → Prop
  | plain s => Quiet s
  | tag w => Whole w

end Block

/-- The text of some blocks. -/
def flat (bs : List Block) : List Char :=
  bs.flatMap Block.text

/-- Some blocks with others put in the place of a tag. -/
def put (w : Raw) (new bs : List Block) : List Block :=
  bs.flatMap fun b => if b = .tag w then new else [b]

@[simp] theorem flat_nil : flat [] = [] := rfl

theorem flat_cons (b : Block) (bs : List Block) : flat (b :: bs) = b.text ++ flat bs :=
  List.flatMap_cons

theorem flat_append (bs cs : List Block) : flat (bs ++ cs) = flat bs ++ flat cs :=
  List.flatMap_append

/-- A text in sound blocks has the tags among them. -/
theorem scan_flat {bs : List Block} (h : ∀ b ∈ bs, b.Sound) : scan (flat bs) = bs.filterMap Block.raw? := by
  induction bs with
  | nil => exact scan_of_cut?_none rfl
  | cons b bs ih =>
    have hb : b.Sound := h b List.mem_cons_self
    have hbs := ih fun b' hb' => h b' (List.mem_cons_of_mem _ hb')
    rw [flat_cons]
    cases b with
    | plain s => rw [Block.text, Quiet.scan_append hb, hbs]; rfl
    | tag w => rw [Block.text, Whole.scan_append hb, hbs]; rfl

/-- A text in sound blocks holds the text of a tag exactly if the tag is among them. -/
theorem occurs_flat {bs : List Block} (h : ∀ b ∈ bs, b.Sound) {w : Raw} (hw : Whole w) :
    Text.occurs w.text (flat bs) = true ↔ .tag w ∈ bs := by
  induction bs with
  | nil =>
    obtain ⟨c, hc⟩ := Whole.text_eq_cons w
    rw [hc]
    simp [Text.occurs, Text.afterHead?]
  | cons b bs ih =>
    have hb : b.Sound := h b List.mem_cons_self
    have hbs := ih fun b' hb' => h b' (List.mem_cons_of_mem _ hb')
    rw [flat_cons, List.mem_cons, ← hbs]
    cases b with
    | plain s =>
      rw [Block.text, Quiet.occurs_append hw hb]
      simp
    | tag w' =>
      rw [Block.text, Whole.occurs_append hw hb, Bool.or_eq_true, decide_eq_true_eq, Block.tag.injEq, eq_comm]

/-- In a text in sound blocks, replacing the text of a tag is replacing the tag. -/
theorem replaceIn_flat {bs : List Block} (h : ∀ b ∈ bs, b.Sound) {w : Raw} (hw : Whole w) (new : List Block) :
    Text.replaceIn w.text (flat new) (flat bs) = flat (put w new bs) := by
  induction bs with
  | nil => simp [put, Text.replaceIn]
  | cons b bs ih =>
    have hb : b.Sound := h b List.mem_cons_self
    have hbs := ih fun b' hb' => h b' (List.mem_cons_of_mem _ hb')
    have hput : put w new (b :: bs) = (if b = .tag w then new else [b]) ++ put w new bs := List.flatMap_cons
    rw [flat_cons, hput, flat_append, ← hbs]
    cases b with
    | plain s =>
      rw [Block.text, Quiet.replaceIn_append hw _ hb, if_neg (by simp)]
      simp [flat, Block.text]
    | tag w' =>
      rw [Block.text, Whole.replaceIn_append hw hb]
      by_cases heq : w' = w
      · simp [heq]
      · simp [heq, flat, Block.text]

/-- A block that stands there after others were put in the place of a tag is one of them, or stood there and is not the
tag. -/
theorem mem_put_iff {b : Block} {w : Raw} {new bs : List Block} :
    b ∈ put w new bs ↔ (b ∈ new ∧ .tag w ∈ bs) ∨ (b ∈ bs ∧ b ≠ .tag w) := by
  unfold put
  rw [List.mem_flatMap]
  constructor
  · rintro ⟨b', hb', hmem⟩
    split at hmem
    · rename_i heq
      rw [← heq]
      exact Or.inl ⟨hmem, hb'⟩
    · rename_i hne
      obtain rfl := List.mem_singleton.mp hmem
      exact Or.inr ⟨hb', hne⟩
  · rintro (⟨hnew, htag⟩ | ⟨hb, hne⟩)
    · exact ⟨_, htag, by rwa [if_pos rfl]⟩
    · exact ⟨b, hb, by rw [if_neg hne]; exact List.mem_singleton_self b⟩

/-! ## Closed texts -/

/-- A text ends with a part of the beginning of a tag that is not empty and not the whole; `fold` says how its characters are
read. -/
def EndsOpen (fold : Char → Char) (text : List Char) : Prop :=
  ∃ u, u ≠ [] ∧ u <:+ text ∧ u.length < opening.length ∧ u.map fold <+: opening

/-- What stands in front of each of some tags, all the way from the beginning. -/
def fronts : List (List Char × Raw) → List (List Char)
  | [] => []
  | (gap, w) :: rest => gap :: (fronts rest).map fun front => gap ++ w.text ++ front

/-- Wherever a tag is opened in the text, in any case, a tag of the text stands, and neither the text nor what stands in front
of one of its tags ends with a part of the beginning of a tag. -/
structure Closed (fold : Char → Char) (text : List Char) : Prop where
  opens : ∀ before after, text = before ++ after → (open? after).isSome = true → before ∈ fronts (pieces text).1
  seams : ∀ front ∈ fronts (pieces text).1, ¬ EndsOpen fold front
  ending : ¬ EndsOpen fold text

theorem endsOpen_iff {fold : Char → Char} {text : List Char} :
    EndsOpen fold text ↔
      ∃ k < text.length, (text.drop k).length < opening.length ∧ (text.drop k).map fold <+: opening := by
  constructor
  · rintro ⟨u, hne, ⟨v, rfl⟩, hlt, hp⟩
    have hpos := List.length_pos_iff.mpr hne
    refine ⟨v.length, ?_, ?_⟩
    · rw [List.length_append]
      omega
    · rw [List.drop_left]
      exact ⟨hlt, hp⟩
  · rintro ⟨k, hk, hlt, hp⟩
    refine ⟨text.drop k, ?_, List.drop_suffix k text, hlt, hp⟩
    rw [← List.length_pos_iff, List.length_drop]
    omega

instance (fold : Char → Char) (text : List Char) : Decidable (EndsOpen fold text) :=
  decidable_of_iff' _ endsOpen_iff

theorem closed_iff {fold : Char → Char} {text : List Char} :
    Closed fold text ↔
      (∀ k < text.length + 1, (open? (text.drop k)).isSome = true → text.take k ∈ fronts (pieces text).1) ∧
        (∀ front ∈ fronts (pieces text).1, ¬ EndsOpen fold front) ∧ ¬ EndsOpen fold text := by
  constructor
  · intro h
    exact ⟨fun k _ hopen => h.opens _ _ (List.take_append_drop k text).symm hopen, h.seams, h.ending⟩
  · rintro ⟨hopens, hseams, hending⟩
    refine ⟨?_, hseams, hending⟩
    rintro before after rfl hopen
    have hfront := hopens before.length (by rw [List.length_append]; omega)
    rw [List.drop_left, List.take_left] at hfront
    exact hfront hopen

instance (fold : Char → Char) (text : List Char) : Decidable (Closed fold text) :=
  decidable_of_iff' _ closed_iff

theorem fronts_of_cut? {text gap rest : List Char} {w : Raw} (h : cut? text = some (gap, w, rest)) :
    fronts (pieces text).1 = gap :: (fronts (pieces rest).1).map fun front => gap ++ w.text ++ front := by
  rw [pieces]
  split
  · rename_i gap' w' rest' h'
    rw [h, Option.some.injEq, Prod.mk.injEq, Prod.mk.injEq] at h'
    obtain ⟨rfl, rfl, rfl⟩ := h'
    rfl
  · rename_i h'
    rw [h] at h'
    cases h'

theorem fronts_of_cut?_none {text : List Char} (h : cut? text = none) : fronts (pieces text).1 = [] := by
  rw [pieces]
  split
  · rename_i h'
    rw [h] at h'
    cases h'
  · rfl

/-- What begins as a tag does is opened as one, or too short for that. -/
theorem short_or_opened {u : List Char} (h : Begins u) :
    (u.length < opening.length ∧ u.map Char.toLower <+: opening) ∨ ∀ rest, (open? (u ++ rest)).isSome = true := by
  rcases Nat.lt_or_ge u.length opening.length with hlt | hge
  · rw [Begins, List.take_of_length_le (Nat.le_of_lt hlt)] at h
    exact Or.inl ⟨hlt, h⟩
  · refine Or.inr fun rest => ?_
    have hhead : (u.take opening.length).map Char.toLower = opening := by
      refine List.IsPrefix.eq_of_length h ?_
      rw [List.length_map, List.length_take]
      omega
    rw [← List.take_append_drop opening.length u, List.append_assoc, open?_append hhead]
    rfl

/-- In front of the first tag nothing is opened. -/
theorem open?_gap {text gap rest u : List Char} {w : Raw} (h : cut? text = some (gap, w, rest)) (hne : u ≠ [])
    (hu : u <:+ gap) : open? (u ++ (w.text ++ rest)) = none := by
  induction text generalizing gap with
  | nil => cases h
  | cons c text ih =>
    have htext := eq_of_cut? h
    rw [cut?] at h
    split at h
    · split at h
      · rw [Option.some.injEq, Prod.mk.injEq] at h
        rw [← h.1, List.suffix_nil] at hu
        exact absurd hu hne
      · cases h
    · rename_i hopen
      obtain ⟨⟨gap', w', rest'⟩, hcut, heq⟩ := Option.map_eq_some_iff.mp h
      rw [Prod.mk.injEq, Prod.mk.injEq] at heq
      obtain ⟨rfl, rfl, rfl⟩ := heq
      rcases List.suffix_cons_iff.mp hu with rfl | hu
      · rw [← List.append_assoc, ← htext]
        exact hopen
      · exact ih hcut hu

/-- The first tag of a text begins and ends as a tag does, whatever follows it. -/
theorem head_and_body_of_cut? {text gap rest : List Char} {w : Raw} (h : cut? text = some (gap, w, rest)) :
    w.head.map Char.toLower = opening ∧ ∀ rest', close? (w.body ++ closing ++ rest') = some (w.body, rest') := by
  induction text generalizing gap with
  | nil => cases h
  | cons c text ih =>
    rw [cut?] at h
    split at h
    · rename_i head after hopen
      split at h
      · rename_i body rest' hclose
        rw [Option.some.injEq, Prod.mk.injEq, Prod.mk.injEq] at h
        obtain ⟨-, rfl, -⟩ := h
        exact ⟨(eq_of_open? hopen).2, close?_append hclose⟩
      · cases h
    · obtain ⟨⟨gap', w', rest'⟩, hcut, heq⟩ := Option.map_eq_some_iff.mp h
      rw [Prod.mk.injEq, Prod.mk.injEq] at heq
      obtain ⟨-, rfl, rfl⟩ := heq
      exact ih hcut

/-- A tag never ends with the beginning of another. -/
theorem not_endsOpen_of_suffix {w : Raw} {u : List Char} (hne : u ≠ []) (hu : u <:+ w.text) :
    ¬ u.map Char.toLower <+: opening := by
  intro hp
  have hlast : '>' ∈ u := by
    have hmem : u.getLast hne = w.text.getLast Whole.text_ne_nil := hu.getLast hne
    have hend : w.text.getLast Whole.text_ne_nil = '>' := by simp [Raw.text, closing]
    rw [← hend, ← hmem]
    exact List.getLast_mem hne
  have hlower : '>' ∈ opening := hp.subset (List.mem_map.mpr ⟨'>', hlast, by decide⟩)
  exact absurd hlower (by decide)

namespace Closed

variable {text gap rest : List Char} {w : Raw}

/-- What follows a tag of a closed text is closed. -/
theorem behind (h : Closed Char.toLower text) (hcut : cut? text = some (gap, w, rest)) : Closed Char.toLower rest := by
  have htext := eq_of_cut? hcut
  have hfronts := fronts_of_cut? hcut
  have longer {front : List Char} (hopen : EndsOpen Char.toLower front) :
      EndsOpen Char.toLower (gap ++ w.text ++ front) := by
    obtain ⟨u, hne, hu, hlt, hp⟩ := hopen
    exact ⟨u, hne, hu.trans (List.suffix_append _ _), hlt, hp⟩
  refine ⟨?_, ?_, ?_⟩
  · intro before after hsplit hopen
    have hfront := h.opens (gap ++ w.text ++ before) after (by rw [htext, hsplit]; simp) hopen
    rw [hfronts, List.mem_cons] at hfront
    rcases hfront with heq | hmem
    · have hlen := congrArg List.length heq
      simp only [Raw.text, closing, List.length_append, List.length_cons] at hlen
      omega
    · obtain ⟨front, hfront, heq⟩ := List.mem_map.mp hmem
      rw [List.append_cancel_left heq] at hfront
      exact hfront
  · intro front hfront hopen
    refine h.seams (gap ++ w.text ++ front) ?_ (longer hopen)
    rw [hfronts]
    exact List.mem_cons_of_mem _ (List.mem_map.mpr ⟨front, hfront, rfl⟩)
  · intro hopen
    refine h.ending ?_
    rw [htext]
    exact longer hopen

/-- The stretch in front of the first tag of a closed text is quiet. -/
theorem quiet_gap (h : Closed Char.toLower text) (hcut : cut? text = some (gap, w, rest)) : Quiet gap := by
  intro u hne hu hbegins
  rcases short_or_opened hbegins with ⟨hlt, hp⟩ | hopen
  · refine h.seams gap ?_ ⟨u, hne, hu, hlt, hp⟩
    rw [fronts_of_cut? hcut]
    exact List.mem_cons_self
  · have hnone := open?_gap hcut hne hu
    have hsome := hopen (w.text ++ rest)
    rw [hnone] at hsome
    cases hsome

/-- The first tag of a closed text is whole. -/
theorem whole (h : Closed Char.toLower text) (hcut : cut? text = some (gap, w, rest)) : Whole w := by
  obtain ⟨hhead, hbody⟩ := head_and_body_of_cut? hcut
  refine ⟨hhead, hbody, ?_⟩
  intro u hne hu hbegins
  obtain ⟨c, hc⟩ := Whole.text_eq_cons w
  rcases short_or_opened hbegins with ⟨-, hp⟩ | hopen
  · refine not_endsOpen_of_suffix (w := w) hne ?_ hp
    rw [hc]
    exact hu.trans (List.suffix_cons c _)
  · -- an opening inside the tag would have to be in front of another tag, but those begin behind it
    obtain ⟨v, hv⟩ := hu
    have hlen : w.text.length = 1 + v.length + u.length := by
      rw [hc, ← hv]
      simp only [List.length_cons, List.length_append]
      omega
    have hulen := List.length_pos_iff.mpr hne
    have htext : text = (gap ++ c :: v) ++ (u ++ rest) := by
      rw [eq_of_cut? hcut, hc, ← hv]
      simp
    have hfront := h.opens _ _ htext (hopen rest)
    rw [fronts_of_cut? hcut, List.mem_cons] at hfront
    rcases hfront with heq | hmem
    · have hcontra := congrArg List.length heq
      simp only [List.length_append, List.length_cons] at hcontra
      omega
    · obtain ⟨front, -, heq⟩ := List.mem_map.mp hmem
      have hcontra := congrArg List.length heq
      simp only [List.length_append, List.length_cons] at hcontra
      omega

/-- A closed text without tags is quiet. -/
theorem quiet (h : Closed Char.toLower text) (hcut : cut? text = none) : Quiet text := by
  intro u hne hu hbegins
  rcases short_or_opened hbegins with ⟨hlt, hp⟩ | hopen
  · exact h.ending ⟨u, hne, hu, hlt, hp⟩
  · obtain ⟨v, hv⟩ := hu
    have hfront := h.opens v u hv.symm (by simpa using hopen [])
    rw [fronts_of_cut?_none hcut] at hfront
    cases hfront

/-- A closed text is made of sound blocks. -/
theorem blocks (h : Closed Char.toLower text) : ∃ bs : List Block, (∀ b ∈ bs, b.Sound) ∧ flat bs = text := by
  induction text using pieces.induct with
  | case1 text gap w rest hcut tags last heq ih =>
    obtain ⟨bs, hbs, hflat⟩ := ih (h.behind hcut)
    refine ⟨.plain gap :: .tag w :: bs, ?_, ?_⟩
    · intro b hb
      rw [List.mem_cons, List.mem_cons] at hb
      rcases hb with rfl | rfl | hb
      · exact h.quiet_gap hcut
      · exact h.whole hcut
      · exact hbs b hb
    · rw [flat_cons, flat_cons, hflat, eq_of_cut? hcut, List.append_assoc]
      rfl
  | case2 text hcut =>
    refine ⟨[.plain text], ?_, ?_⟩
    · intro b hb
      obtain rfl := List.mem_singleton.mp hb
      exact h.quiet hcut
    · rw [flat_cons, flat_nil, List.append_nil]
      rfl

end Closed

end Tag

end Folio
