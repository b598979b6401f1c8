import Folio.Proofs.Blocks
import Folio.Render.Error

/-!
# Expanding a text

`Expands out excluded n text e` says that `e` is the text with every tag in it replaced by the expansion of its output,
nested at most `n` deep; tags without a body and excluded tags are kept. It is a definition by recursion on the text and its
outputs and knows nothing of pages or cycles. An expansion is unique (`Expands.unique`), and in a text made of blocks it goes
block by block (`expands_flat_iff`), so putting the output of a tag in its place does not change it (`expands_of_put`).
-/

namespace Folio

namespace Tag

/-- A text with its tags replaced by the expansions of their outputs, nested at most so deep. -/
inductive Expands (out : Tag → Except RenderError String) (excluded : List String) :
    Nat → List Char → List Char → Prop where
  | plain {n : Nat} {text : List Char} : cut? text = none → Expands out excluded n text text
  | kept {n : Nat} {text gap rest e : List Char} {w : Raw} : cut? text = some (gap, w, rest) → wanted? excluded w = none →
      Expands out excluded n rest e → Expands out excluded n text (gap ++ w.text ++ e)
  | opened {n : Nat} {text gap rest inner e : List Char} {w : Raw} {t : Tag} {o : String} :
      cut? text = some (gap, w, rest) → wanted? excluded w = some t → out t = .ok o →
      Expands out excluded n o.toList inner → Expands out excluded (n + 1) rest e →
      Expands out excluded (n + 1) text (gap ++ inner ++ e)

/-- The tags that a rendering of a text can come to: those in it, and those in the outputs of such tags. -/
inductive Reached (out : Tag → Except RenderError String) (text : List Char) : Tag → Prop where
  | first {w : Raw} {t : Tag} : w ∈ scan text → decode? w = some t → Reached out text t
  | inner {w : Raw} {t u : Tag} {o : String} : Reached out text t → out t = .ok o → w ∈ scan o.toList →
      decode? w = some u → Reached out text u

variable {out : Tag → Except RenderError String} {excluded : List String} {n : Nat}

/-- Some tags that hold those of the text and, with a tag, those of its output hold all that can be come to. -/
theorem Reached.mem {text : List Char} {tags : List Tag} (hfirst : ∀ t ∈ (scan text).filterMap decode?, t ∈ tags)
    (hinner : ∀ t ∈ tags, ∀ o, out t = .ok o → ∀ u ∈ (scan o.toList).filterMap decode?, u ∈ tags) {t : Tag}
    (h : Reached out text t) : t ∈ tags := by
  induction h with
  | first hw ht => exact hfirst _ (List.mem_filterMap.mpr ⟨_, hw, ht⟩)
  | inner _ ho hw hu ih => exact hinner _ ih _ ho _ (List.mem_filterMap.mpr ⟨_, hw, hu⟩)

namespace Expands

variable {text e : List Char}

theorem succ (h : Expands out excluded n text e) : Expands out excluded (n + 1) text e := by
  induction h with
  | plain hcut => exact .plain hcut
  | kept hcut hw _ ih => exact .kept hcut hw ih
  | opened hcut hw ho _ _ ihinner ih => exact .opened hcut hw ho ihinner ih

/-- A text has at most one expansion, however deep. -/
theorem unique {m : Nat} {e' : List Char} (h : Expands out excluded n text e) (h' : Expands out excluded m text e') :
    e = e' := by
  induction h generalizing m e' with
  | plain hcut =>
    cases h' with
    | plain => rfl
    | kept hcut' => rw [hcut] at hcut'; cases hcut'
    | opened hcut' => rw [hcut] at hcut'; cases hcut'
  | kept hcut hw _ ih =>
    cases h' with
    | plain hcut' => rw [hcut] at hcut'; cases hcut'
    | kept hcut' _ hrest' =>
      rw [hcut] at hcut'
      cases hcut'
      rw [ih hrest']
    | opened hcut' hw' =>
      rw [hcut] at hcut'
      cases hcut'
      rw [hw] at hw'
      cases hw'
  | opened hcut hw ho _ _ ihinner ih =>
    cases h' with
    | plain hcut' => rw [hcut] at hcut'; cases hcut'
    | kept hcut' hw' =>
      rw [hcut] at hcut'
      cases hcut'
      rw [hw] at hw'
      cases hw'
    | opened hcut' hw' ho' hinner' hrest' =>
      rw [hcut] at hcut'
      cases hcut'
      rw [hw, Option.some.injEq] at hw'
      rw [← hw', ho, Except.ok.injEq] at ho'
      rw [← ho'] at hinner'
      rw [ihinner hinner', ih hrest']

/-- What expands with fewer exclusions expands with more, to another text and no deeper. -/
theorem exclude {fewer : List String} (hle : ∀ w t, wanted? excluded w = some t → wanted? fewer w = some t)
    (h : Expands out fewer n text e) : ∃ e', Expands out excluded n text e' := by
  induction h with
  | plain hcut => exact ⟨_, .plain hcut⟩
  | @kept n text gap rest e w hcut hw _ ih =>
    obtain ⟨e', ih⟩ := ih
    refine ⟨_, .kept hcut ?_ ih⟩
    cases hw' : wanted? excluded w with
    | none => rfl
    | some t =>
      rw [hle w t hw'] at hw
      cases hw
  | @opened n text gap rest inner e w t o hcut hw ho _ _ ihinner ih =>
    obtain ⟨inner', ihinner⟩ := ihinner
    obtain ⟨e', ih⟩ := ih
    cases hw' : wanted? excluded w with
    | none => exact ⟨_, .kept hcut hw' ih⟩
    | some t' =>
      have ht := hle w t' hw'
      rw [hw, Option.some.injEq] at ht
      rw [← ht] at hw'
      exact ⟨_, .opened hcut hw' ho ihinner ih⟩

end Expands

/-- A text expands to itself where nothing is asked for. -/
theorem expands_self {text : List Char} (h : ∀ w ∈ scan text, wanted? excluded w = none) :
    Expands out excluded n text text := by
  induction text using pieces.induct with
  | case1 text gap w rest hcut tags last heq ih =>
    have hscan := scan_of_cut? hcut
    have hrest : Expands out excluded n rest rest :=
      ih fun w' hw' => h w' (by rw [hscan]; exact List.mem_cons_of_mem _ hw')
    have hkept := Expands.kept hcut (h w (by rw [hscan]; exact List.mem_cons_self)) hrest
    rw [← eq_of_cut? hcut] at hkept
    exact hkept
  | case2 text hcut => exact .plain hcut

/-! ## Block by block -/

/-- A quiet text in front stays as it is. -/
theorem Quiet.expands_append_iff {s : List Char} (hs : Quiet s) {text e : List Char} :
    Expands out excluded n (s ++ text) e ↔ ∃ e', e = s ++ e' ∧ Expands out excluded n text e' := by
  have hcut := hs.cut?_append text
  constructor
  · intro h
    cases h with
    | plain hnone =>
      rw [hnone, eq_comm, Option.map_eq_none_iff] at hcut
      exact ⟨text, rfl, .plain hcut⟩
    | kept hsome hw hrest =>
      rw [hsome, eq_comm] at hcut
      obtain ⟨⟨gap', w', rest'⟩, htext, heq⟩ := Option.map_eq_some_iff.mp hcut
      cases heq
      exact ⟨_, by simp, .kept htext hw hrest⟩
    | opened hsome hw ho hinner hrest =>
      rw [hsome, eq_comm] at hcut
      obtain ⟨⟨gap', w', rest'⟩, htext, heq⟩ := Option.map_eq_some_iff.mp hcut
      cases heq
      exact ⟨_, by simp, .opened htext hw ho hinner hrest⟩
  · rintro ⟨e', rfl, h⟩
    cases h with
    | plain hnone =>
      rw [hnone] at hcut
      exact .plain hcut
    | kept hsome hw hrest =>
      rw [hsome] at hcut
      have hkept := Expands.kept hcut hw hrest
      simpa using hkept
    | opened hsome hw ho hinner hrest =>
      rw [hsome] at hcut
      have hopened := Expands.opened hcut hw ho hinner hrest
      simpa using hopened

/-- What a tag expands to on its own. -/
def ExpandsTag (out : Tag → Except RenderError String) (excluded : List String) (n : Nat) (w : Raw) (e : List Char) : Prop :=
  (wanted? excluded w = none ∧ e = w.text) ∨
    ∃ k t o, n = k + 1 ∧ wanted? excluded w = some t ∧ out t = .ok o ∧ Expands out excluded k o.toList e

theorem ExpandsTag.succ {w : Raw} {e : List Char} (h : ExpandsTag out excluded n w e) :
    ExpandsTag out excluded (n + 1) w e := by
  rcases h with hkept | ⟨k, t, o, rfl, ht, ho, hinner⟩
  · exact Or.inl hkept
  · exact Or.inr ⟨k + 1, t, o, rfl, ht, ho, hinner.succ⟩

/-- A whole tag in front expands on its own. -/
theorem Whole.expands_append_iff {w : Raw} (hw : Whole w) {text e : List Char} :
    Expands out excluded n (w.text ++ text) e ↔
      ∃ e₁ e₂, e = e₁ ++ e₂ ∧ ExpandsTag out excluded n w e₁ ∧ Expands out excluded n text e₂ := by
  have hcut := hw.cut?_append text
  constructor
  · intro h
    cases h with
    | plain hnone => rw [hcut] at hnone; cases hnone
    | kept hsome hnone hrest =>
      rw [hcut] at hsome
      cases hsome
      exact ⟨_, _, rfl, Or.inl ⟨hnone, rfl⟩, hrest⟩
    | opened hsome ht ho hinner hrest =>
      rw [hcut] at hsome
      cases hsome
      exact ⟨_, _, rfl, Or.inr ⟨_, _, _, rfl, ht, ho, hinner⟩, hrest⟩
  · rintro ⟨e₁, e₂, rfl, ⟨hnone, rfl⟩ | ⟨k, t, o, rfl, ht, ho, hinner⟩, hrest⟩
    · exact .kept hcut hnone hrest
    · exact .opened hcut ht ho hinner hrest

theorem expands_append_iff {bs cs : List Block} (hbs : ∀ b ∈ bs, b.Sound) {e : List Char} :
    Expands out excluded n (flat bs ++ flat cs) e ↔
      ∃ e₁ e₂, e = e₁ ++ e₂ ∧ Expands out excluded n (flat bs) e₁ ∧ Expands out excluded n (flat cs) e₂ := by
  induction bs generalizing e with
  | nil =>
    constructor
    · intro h
      exact ⟨[], e, rfl, .plain rfl, h⟩
    · rintro ⟨e₁, e₂, rfl, h₁, h₂⟩
      rw [h₁.unique (.plain rfl : Expands out excluded n [] [])]
      exact h₂
  | cons b bs ih =>
    have hb : b.Sound := hbs b List.mem_cons_self
    have ih {e : List Char} := ih (fun b' hb' => hbs b' (List.mem_cons_of_mem _ hb')) (e := e)
    rw [flat_cons, List.append_assoc]
    cases b with
    | plain s =>
      rw [Block.text, Quiet.expands_append_iff hb]
      constructor
      · rintro ⟨e', rfl, h⟩
        obtain ⟨e₁, e₂, rfl, h₁, h₂⟩ := ih.mp h
        exact ⟨s ++ e₁, e₂, by simp, (Quiet.expands_append_iff hb).mpr ⟨e₁, rfl, h₁⟩, h₂⟩
      · rintro ⟨e₁, e₂, rfl, h₁, h₂⟩
        obtain ⟨e', rfl, h⟩ := (Quiet.expands_append_iff hb).mp h₁
        exact ⟨e' ++ e₂, by simp, ih.mpr ⟨e', e₂, rfl, h, h₂⟩⟩
    | tag w =>
      rw [Block.text, Whole.expands_append_iff hb]
      constructor
      · rintro ⟨e', e'', rfl, hw, h⟩
        obtain ⟨e₁, e₂, rfl, h₁, h₂⟩ := ih.mp h
        exact ⟨e' ++ e₁, e₂, by simp, (Whole.expands_append_iff hb).mpr ⟨e', e₁, rfl, hw, h₁⟩, h₂⟩
      · rintro ⟨e₁, e₂, rfl, h₁, h₂⟩
        obtain ⟨e', e'', rfl, hw, h⟩ := (Whole.expands_append_iff hb).mp h₁
        exact ⟨e', e'' ++ e₂, by simp, hw, ih.mpr ⟨e'', e₂, rfl, h, h₂⟩⟩

/-- A text in sound blocks can be expanded if every tag among them can. -/
theorem expands_flat_iff {bs : List Block} (hbs : ∀ b ∈ bs, b.Sound) :
    (∃ e, Expands out excluded n (flat bs) e) ↔ ∀ w, .tag w ∈ bs → ∃ e, ExpandsTag out excluded n w e := by
  induction bs with
  | nil => exact ⟨fun _ w hw => (by cases hw), fun _ => ⟨[], .plain rfl⟩⟩
  | cons b bs ih =>
    have hb : b.Sound := hbs b List.mem_cons_self
    have ih := ih fun b' hb' => hbs b' (List.mem_cons_of_mem _ hb')
    rw [flat_cons]
    cases b with
    | plain s =>
      constructor
      · rintro ⟨e, h⟩ w hw
        obtain ⟨e', -, h⟩ := (Quiet.expands_append_iff hb).mp h
        rcases List.mem_cons.mp hw with heq | hw
        · cases heq
        · exact ih.mp ⟨e', h⟩ w hw
      · intro h
        obtain ⟨e, he⟩ := ih.mpr fun w hw => h w (List.mem_cons_of_mem _ hw)
        exact ⟨s ++ e, (Quiet.expands_append_iff hb).mpr ⟨e, rfl, he⟩⟩
    | tag w =>
      constructor
      · rintro ⟨e, h⟩ w' hw'
        obtain ⟨e₁, e₂, -, hw, h⟩ := (Whole.expands_append_iff hb).mp h
        rcases List.mem_cons.mp hw' with heq | hw'
        · cases heq
          exact ⟨e₁, hw⟩
        · exact ih.mp ⟨e₂, h⟩ w' hw'
      · intro h
        obtain ⟨e₁, hw⟩ := h w List.mem_cons_self
        obtain ⟨e₂, he⟩ := ih.mpr fun w' hw' => h w' (List.mem_cons_of_mem _ hw')
        exact ⟨e₁ ++ e₂, (Whole.expands_append_iff hb).mpr ⟨e₁, e₂, rfl, hw, he⟩⟩

/-- Putting the output of a tag in its place does not change what a text expands to; the tag stands one level higher. -/
theorem expands_of_put {w : Raw} {t : Tag} {o : String} {new bs : List Block} (hbs : ∀ b ∈ bs, b.Sound)
    (hnew : ∀ b ∈ new, b.Sound) (ht : wanted? excluded w = some t) (ho : out t = .ok o) (hflat : flat new = o.toList)
    {e : List Char} (h : Expands out excluded n (flat (put w new bs)) e) : Expands out excluded (n + 1) (flat bs) e := by
  induction bs generalizing e with
  | nil => exact h.succ
  | cons b bs ih =>
    have hb : b.Sound := hbs b List.mem_cons_self
    have ih {e : List Char} := ih (fun b' hb' => hbs b' (List.mem_cons_of_mem _ hb')) (e := e)
    rw [flat_cons]
    by_cases heq : b = .tag w
    · rw [put, List.flatMap_cons, if_pos heq, flat_append, expands_append_iff hnew] at h
      obtain ⟨e₁, e₂, rfl, h₁, h₂⟩ := h
      rw [hflat] at h₁
      subst heq
      exact (Whole.expands_append_iff hb).mpr ⟨e₁, e₂, rfl, Or.inr ⟨n, t, o, rfl, ht, ho, h₁⟩, ih h₂⟩
    · rw [put, List.flatMap_cons, if_neg heq, List.singleton_append, flat_cons] at h
      cases b with
      | plain s =>
        obtain ⟨e', rfl, hrest⟩ := (Quiet.expands_append_iff hb).mp h
        exact (Quiet.expands_append_iff hb).mpr ⟨e', rfl, ih hrest⟩
      | tag w' =>
        obtain ⟨e₁, e₂, rfl, hw, hrest⟩ := (Whole.expands_append_iff hb).mp h
        exact (Whole.expands_append_iff hb).mpr ⟨e₁, e₂, rfl, hw.succ, ih hrest⟩

/-! ## Rewriting -/

/-- The blocks of a text after the outputs of some tags in it, one tag after the other, were put in their places. -/
inductive Rewrites (out : Tag → Except RenderError String) (excluded : List String) (bs : List Block) :
    List Block → Prop where
  | refl : Rewrites out excluded bs bs
  | put {cs new : List Block} {w : Raw} {t : Tag} {o : String} : Rewrites out excluded bs cs →
      wanted? excluded w = some t → out t = .ok o → flat new = o.toList → (∀ b ∈ new, b.Sound) →
      Rewrites out excluded bs (put w new cs)

namespace Rewrites

variable {bs cs ds : List Block}

theorem trans (h : Rewrites out excluded bs cs) (h' : Rewrites out excluded cs ds) : Rewrites out excluded bs ds := by
  induction h' with
  | refl => exact h
  | put _ ht ho hflat hnew ih => exact .put ih ht ho hflat hnew

theorem sound (h : Rewrites out excluded bs cs) (hbs : ∀ b ∈ bs, b.Sound) : ∀ b ∈ cs, b.Sound := by
  induction h with
  | refl => exact hbs
  | put _ _ _ _ hnew ih =>
    intro b hb
    rcases mem_put_iff.mp hb with ⟨hb, -⟩ | ⟨hb, -⟩
    · exact hnew b hb
    · exact ih b hb

/-- Fewer exclusions allow the same and more. -/
theorem fewer {fewer : List String} (hle : ∀ w t, wanted? excluded w = some t → wanted? fewer w = some t)
    (h : Rewrites out excluded bs cs) : Rewrites out fewer bs cs := by
  induction h with
  | refl => exact .refl
  | put _ ht ho hflat hnew ih => exact .put ih (hle _ _ ht) ho hflat hnew

/-- What a text expands to after rewriting is what it expands to. -/
theorem expands (h : Rewrites out excluded bs cs) (hbs : ∀ b ∈ bs, b.Sound) {e : List Char}
    (he : Expands out excluded n (flat cs) e) : ∃ m, Expands out excluded m (flat bs) e := by
  induction h generalizing n with
  | refl => exact ⟨n, he⟩
  | put hrest ht ho hflat hnew ih => exact ih (expands_of_put (hrest.sound hbs) hnew ht ho hflat he)

/-- Rewriting does not take a text any deeper. -/
theorem depth (h : Rewrites out excluded bs cs) (hbs : ∀ w, .tag w ∈ bs → ∃ e, ExpandsTag out excluded n w e) :
    ∀ w, .tag w ∈ cs → ∃ e, ExpandsTag out excluded n w e := by
  induction h with
  | refl => exact hbs
  | @put cs new w t o _ ht ho hflat hnew ih =>
    intro w' hw'
    rcases mem_put_iff.mp hw' with ⟨hw', hw⟩ | ⟨hw', -⟩
    · obtain ⟨e, hnone | ⟨k, t', o', rfl, ht', ho', hinner⟩⟩ := ih w hw
      · rw [ht] at hnone
        cases hnone.1
      · rw [ht, Option.some.injEq] at ht'
        rw [← ht', ho, Except.ok.injEq] at ho'
        rw [← ho', ← hflat] at hinner
        obtain ⟨e', he'⟩ := (expands_flat_iff hnew).mp ⟨_, hinner⟩ w' hw'
        exact ⟨e', he'.succ⟩
    · exact ih w' hw'

end Rewrites

end Tag

end Folio
