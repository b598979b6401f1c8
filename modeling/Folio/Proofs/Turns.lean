import Folio.Proofs.Lowercase
import Folio.Proofs.Repetition

/-!
# The turns of a rendering

`passTurns` lists the tags that a pass renders, in order, each with the state that it is rendered in, and `bodyTurns` and
`headTurns` those of the two passes of a document. `Led` says that some turns are all that happens between two states, but for
cycles that are counted, and a pass is led by its turns (`led_pass`). So what the rendering of a tag keeps is what every turn
finds (`Led.invariant`, `invariant_of_mem_documentTurns`), and a pass that ends well completes its turns (`Led.completed`). The
tag of a turn is one that its pass does not exclude (`wanted_of_mem_passTurns`).
-/

namespace Folio

/-- The events that were fired, without what the listener was told. -/
def Run.fired {σ : Type} (a : Run σ) : List Event :=
  a.events.map Prod.fst

namespace Tag

/-- The kind and the name of a tag are in lower case. -/
def InLowerCase (t : Tag) : Prop :=
  Text.lower t.kind = t.kind ∧ Text.lower t.name = t.name

theorem inLowerCase_begin (raw : String) (word : List Char) : (begin raw word).1.InLowerCase := by
  have hempty : Text.lower "" = "" := by decide +kernel
  have hdefault : Text.lower defaultKind = defaultKind := by decide +kernel
  unfold begin
  split
  · exact ⟨hdefault, Text.lower_lower _⟩
  · dsimp only
    split
    · exact ⟨Text.lower_lower _, hempty⟩
    · exact ⟨Text.lower_lower _, Text.lower_lower _⟩

/-- A word of the body gives the name in lower case, or leaves kind and name alone. -/
theorem InLowerCase.addWord {t : Tag} (h : t.InLowerCase) (nameFollows : Bool) (word : List Char) :
    (addWord nameFollows t word).InLowerCase := by
  unfold Tag.addWord
  split
  · exact h
  · split
    · exact ⟨h.1, Text.lower_lower _⟩
    · exact h

theorem inLowerCase_of_decode? {w : Raw} {t : Tag} (h : decode? w = some t) : t.InLowerCase := by
  unfold decode? at h
  split at h
  · cases h
  · rename_i first rest _
    rw [Option.some.injEq] at h
    rw [← h]
    refine List.foldlRecOn rest (Tag.addWord (begin (String.ofList w.text) first).2)
      (motive := fun t => t.InLowerCase) (inLowerCase_begin _ _) ?_
    exact fun t ht word _ => ht.addWord _ word

/-- A tag of a document is none of those that are excluded, and its kind and name are in lower case. -/
theorem wanted_of_mem_parse {document : String} {excluded : List String} {t : Tag} (h : t ∈ parse document excluded) :
    t.InLowerCase ∧ t.kind ∉ excluded ∧ t.name ∉ excluded := by
  obtain ⟨w, -, hw⟩ := mem_parse_iff.mp h
  obtain ⟨hdecode, hkind, hname⟩ := wanted?_eq_some_iff.mp hw
  exact ⟨inLowerCase_of_decode? hdecode, hkind, hname⟩

end Tag

namespace Renderer

open Rendering

variable {σ : Type} {r : Renderer σ} {excluded : List String} {a b c : Run σ} {u : Turn σ}

/-! ## The turns of a cycle -/

/-- The turns of a cycle are turns of its tags. -/
theorem mem_of_mem_turns {tags : List Tag} (h : u ∈ r.turns tags a) : u.tag ∈ tags := by
  induction tags generalizing a with
  | nil => cases h
  | cons t rest ih =>
    rw [turns, List.mem_cons] at h
    rcases h with rfl | h
    · exact List.mem_cons_self
    · split at h
      · exact List.mem_cons_of_mem _ (ih h)
      · cases h

/-- The turns lead from one state to another, with a result. Every tag is rendered in the state that its turn finds, which is
the one that the turn before it left, and between the turns nothing happens but that cycles are counted. -/
inductive Led (r : Renderer σ) : Run σ → List (Turn σ) → Except RenderError Unit → Run σ → Prop where
  | ended {a : Run σ} : Led r a [] (.ok ()) a
  | broken {a : Run σ} : Led r a [] (.error (.loopLimit r.settings.maxIterations)) a
  | failed {t : Tag} {a b : Run σ} {e : RenderError} : exec (r.renderTag t) a = (.error e, b) → Led r a [⟨t, a⟩] (.error e) b
  | turn {t : Tag} {a b c : Run σ} {us : List (Turn σ)} {res : Except RenderError Unit} :
      exec (r.renderTag t) a = (.ok (), b) → Led r b us res c → Led r a (⟨t, a⟩ :: us) res c
  | counted {a c : Run σ} {us : List (Turn σ)} {res : Except RenderError Unit} : Led r a.counted us res c → Led r a us res c

/-- What the rendering of a tag keeps holds wherever the turns lead. -/
theorem Led.invariant {P : Run σ → Prop} (htag : ∀ {t a b}, P a → exec (r.renderTag t) a = (.ok (), b) → P b)
    (hcount : ∀ {a}, P a → P a.counted) {us : List (Turn σ)} {res : Except RenderError Unit} (h : r.Led a us res b)
    (ha : P a) : (∀ u ∈ us, P u.found) ∧ (res = .ok () → P b) := by
  induction h with
  | ended => exact ⟨fun _ hu => absurd hu List.not_mem_nil, fun _ => ha⟩
  | broken => exact ⟨fun _ hu => absurd hu List.not_mem_nil, nofun⟩
  | failed => exact ⟨fun u hu => List.mem_singleton.mp hu ▸ ha, nofun⟩
  | turn ht _ ih =>
    obtain ⟨hfound, hend⟩ := ih (htag ha ht)
    refine ⟨fun u hu => ?_, hend⟩
    rcases List.mem_cons.mp hu with rfl | hu
    · exact ha
    · exact hfound u hu
  | counted _ ih => exact ih (hcount ha)

/-- What the turns do comes on top of what was recorded before, and each of them finds what was recorded before it. -/
theorem Led.grown {us : List (Turn σ)} {res : Except RenderError Unit} (h : r.Led a us res b) (hu : u ∈ us) :
    a.Grown Event.OfTag u.found := by
  refine (h.invariant (P := a.Grown Event.OfTag) ?_ ?_ (Run.Grown.refl a)).1 u hu
  · exact fun hgrown ht => hgrown.trans ((local_renderTag r _).grown_of_exec ht)
  · exact fun hgrown => hgrown

/-- Turns that end well are completed. -/
theorem Led.completed {us : List (Turn σ)} {res : Except RenderError Unit} (h : r.Led a us res b) (hres : res = .ok ())
    (hu : u ∈ us) : ∃ c, exec (r.renderTag u.tag) u.found = (.ok (), c) := by
  induction h with
  | ended => cases hu
  | broken => cases hu
  | failed => cases hres
  | @turn t a b _ _ _ ht _ ih =>
    rcases List.mem_cons.mp hu with rfl | hu
    · exact ⟨b, ht⟩
    · exact ih hres hu
  | counted _ ih => exact ih hres hu

theorem filter_turns_of_taken {t : Tag} (rest : List Tag) (h : Text.contains a.ctx.renderedPage t.raw = true) :
    (r.turns (t :: rest) a).filter Turn.taken =
      ⟨t, a⟩ :: match exec (r.renderTag t) a with
        | (.ok _, b) => (r.turns rest b).filter Turn.taken
        | (.error _, _) => [] := by
  have htaken : Turn.taken ⟨t, a⟩ = true := h
  rw [turns, takeTurn, if_pos htaken, List.filter_cons_of_pos htaken]
  dsimp only
  rcases exec (r.renderTag t) a with ⟨e | v, b⟩ <;> rfl

theorem filter_turns_of_not_taken {t : Tag} (rest : List Tag) (h : ¬ Text.contains a.ctx.renderedPage t.raw = true) :
    (r.turns (t :: rest) a).filter Turn.taken = (r.turns rest a).filter Turn.taken := by
  have htaken : ¬ Turn.taken ⟨t, a⟩ = true := h
  rw [turns, takeTurn, if_neg htaken, List.filter_cons_of_neg htaken]

/-- The tags of a cycle that ends well are rendered in the turns that are taken, and the next turns follow. -/
theorem Led.after_renderTags {tags : List Tag} {us : List (Turn σ)} {res : Except RenderError Unit}
    (hb : exec (r.renderTags tags) a = (.ok (), b)) (h : r.Led b us res c) :
    r.Led a ((r.turns tags a).filter Turn.taken ++ us) res c := by
  induction tags generalizing a with
  | nil =>
    cases hb
    exact h
  | cons t rest ih =>
    rw [exec_renderTags_cons] at hb
    by_cases htaken : Text.contains a.ctx.renderedPage t.raw = true
    · rw [if_pos htaken] at hb
      obtain ⟨_, mid, ht, hrest⟩ := ok_of_exec_bind hb
      rw [filter_turns_of_taken rest htaken, ht]
      exact .turn ht (ih hrest)
    · rw [if_neg htaken] at hb
      rw [filter_turns_of_not_taken rest htaken]
      exact ih hb

/-- The tags of a cycle that fails are rendered in the turns that are taken, the last of which fails. -/
theorem led_renderTags_error {tags : List Tag} {e : RenderError} (hb : exec (r.renderTags tags) a = (.error e, b)) :
    r.Led a ((r.turns tags a).filter Turn.taken) (.error e) b := by
  induction tags generalizing a with
  | nil => cases hb
  | cons t rest ih =>
    rw [exec_renderTags_cons] at hb
    by_cases htaken : Text.contains a.ctx.renderedPage t.raw = true
    · rw [if_pos htaken] at hb
      rw [filter_turns_of_taken rest htaken]
      rcases ht : exec (r.renderTag t) a with ⟨e' | v, mid⟩
      · rw [exec_bind_error ht, Prod.mk.injEq, Except.error.injEq] at hb
        obtain ⟨rfl, rfl⟩ := hb
        exact .failed ht
      · rw [exec_bind_ok ht] at hb
        exact .turn ht (ih hb)
    · rw [if_neg htaken] at hb
      rw [filter_turns_of_not_taken rest htaken]
      exact ih hb

/-! ## The turns of a pass -/

/-- The turns that a cycle takes. -/
def takenTurns (r : Renderer σ) (excluded : List String) (a : Run σ) : List (Turn σ) :=
  (r.cycleTurns excluded a).filter Turn.taken

/-- The turns that a pass takes, in order. `allowed` cycles may still be completed. -/
def passTurns (r : Renderer σ) (excluded : List String) (allowed : Nat) (a : Run σ) : List (Turn σ) :=
  match Tag.parse a.ctx.renderedPage excluded with
  | [] => []
  | tags =>
    r.takenTurns excluded a ++
      match allowed, exec (r.renderTags tags) a with
      | allowed + 1, (.ok _, b) => r.passTurns excluded allowed b.counted
      | _, _ => []

theorem passTurns_clean (allowed : Nat) (h : Tag.parse a.ctx.renderedPage excluded = []) :
    r.passTurns excluded allowed a = [] := by
  rw [passTurns.eq_def, h]

/-- A pass that fails in its first cycle takes no further turns. -/
theorem passTurns_failed {e : RenderError} (allowed : Nat) (h : Tag.parse a.ctx.renderedPage excluded ≠ [])
    (hb : exec (r.renderTags (Tag.parse a.ctx.renderedPage excluded)) a = (.error e, b)) :
    r.passTurns excluded allowed a = r.takenTurns excluded a := by
  rw [passTurns.eq_def]
  split
  · rename_i hp
    exact absurd hp h
  · rw [hb]
    cases allowed <;> exact List.append_nil _

/-- After a completed cycle a pass takes the turns of the next, while one is allowed. -/
theorem passTurns_cycle (allowed : Nat) (h : r.Cycle excluded a b) :
    r.passTurns excluded allowed a = r.takenTurns excluded a ++
      match allowed with
      | 0 => []
      | allowed + 1 => r.passTurns excluded allowed b := by
  obtain ⟨hne, mid, hmid, rfl⟩ := h
  rw [passTurns.eq_def]
  split
  · rename_i hp
    exact absurd hp hne
  · rw [hmid]
    cases allowed <;> rfl

/-- Every turn of a pass is a turn of one of its cycles. -/
theorem exists_cycle_of_mem_passTurns {allowed : Nat} (h : u ∈ r.passTurns excluded allowed a) :
    ∃ start, u ∈ r.takenTurns excluded start := by
  induction allowed, a using pass_induction r excluded with
  | clean allowed a hp =>
    rw [passTurns_clean _ hp] at h
    cases h
  | failed allowed a e b hp hb =>
    rw [passTurns_failed _ hp hb] at h
    exact ⟨a, h⟩
  | last a b hc =>
    rw [passTurns_cycle _ hc, List.append_nil] at h
    exact ⟨a, h⟩
  | again allowed a b hc ih =>
    rw [passTurns_cycle _ hc, List.mem_append] at h
    rcases h with h | h
    · exact ⟨a, h⟩
    · exact ih h

/-- The tag of a turn is none of those that the pass excludes. -/
theorem wanted_of_mem_passTurns {allowed : Nat} (h : u ∈ r.passTurns excluded allowed a) :
    u.tag.InLowerCase ∧ u.tag.kind ∉ excluded ∧ u.tag.name ∉ excluded := by
  obtain ⟨start, hu⟩ := exists_cycle_of_mem_passTurns h
  have hturn : u ∈ r.cycleTurns excluded start := (List.mem_filter.mp hu).1
  exact Tag.wanted_of_mem_parse (mem_of_mem_turns hturn)

/-- A pass does nothing but what its turns do. -/
theorem led_pass (r : Renderer σ) (excluded : List String) (allowed : Nat) (a : Run σ) :
    r.Led a (r.passTurns excluded allowed a) (exec (r.pass excluded allowed) a).1 (exec (r.pass excluded allowed) a).2 := by
  induction allowed, a using pass_induction r excluded with
  | clean allowed a hp =>
    rw [passTurns_clean _ hp, exec_pass_clean _ hp]
    exact .ended
  | failed allowed a e b hp hb =>
    rw [passTurns_failed _ hp hb, exec_pass_failed _ hp hb]
    exact led_renderTags_error hb
  | last a b hc =>
    rw [passTurns_cycle _ hc, exec_pass_cycle _ hc]
    obtain ⟨-, mid, hmid, rfl⟩ := hc
    exact .after_renderTags hmid (.counted .broken)
  | again allowed a b hc ih =>
    rw [passTurns_cycle _ hc, exec_pass_cycle _ hc]
    obtain ⟨-, mid, hmid, rfl⟩ := hc
    exact .after_renderTags hmid (.counted ih)

/-- A pass that ends in a state is led there by its turns. -/
theorem led_of_exec_pass {allowed : Nat} {res : Except RenderError Unit} (h : exec (r.pass excluded allowed) a = (res, b)) :
    r.Led a (r.passTurns excluded allowed a) res b := by
  have hled := led_pass r excluded allowed a
  rw [h] at hled
  exact hled

/-! ## The turns of a document -/

/-- The rendering of a document up to the event between its two passes. -/
def renderBody (r : Renderer σ) (root : View) : Rendering σ Unit := do
  r.openPage root
  let ctx ← context
  r.pass ctx.excluded (r.remaining ctx)
  r.firePage .beforeParseHead

/-- The rendering of a document from the event between its two passes on. -/
def renderHead (r : Renderer σ) : Rendering σ String := do
  r.pass [] (r.remaining (← context))
  r.firePage .afterRender
  return (← context).renderedPage

theorem renderFrom_eq (r : Renderer σ) (root : View) : r.renderFrom root = r.renderBody root >>= fun _ => r.renderHead := by
  unfold renderFrom renderBody renderHead
  simp only [bind_assoc]

/-- The turns of the first pass of a document, which begins with the page that its root gives. -/
def bodyTurns (r : Renderer σ) (root : View) (a : Run σ) : List (Turn σ) :=
  match exec (r.openPage root) a with
  | (.ok _, b) => r.passTurns b.ctx.excluded (r.remaining b.ctx) b
  | (.error _, _) => []

/-- The turns of the second pass of a document, which begins where the first one ended. -/
def headTurns (r : Renderer σ) (root : View) (a : Run σ) : List (Turn σ) :=
  match exec (r.renderBody root) a with
  | (.ok _, d) => r.passTurns [] (r.remaining d.ctx) d
  | (.error _, _) => []

/-- The first pass does nothing but what its turns do. -/
theorem led_bodyTurns {root : View} (hopen : exec (r.openPage root) a = (.ok (), b)) :
    ∃ res c, exec (r.pass b.ctx.excluded (r.remaining b.ctx)) b = (res, c) ∧ r.Led b (r.bodyTurns root a) res c := by
  unfold bodyTurns
  rw [hopen]
  exact ⟨_, _, rfl, led_pass r _ _ b⟩

/-- The second pass does nothing but what its turns do. -/
theorem led_headTurns {root : View} (hbody : exec (r.renderBody root) a = (.ok (), b)) :
    ∃ res c, exec (r.pass [] (r.remaining b.ctx)) b = (res, c) ∧ r.Led b (r.headTurns root a) res c := by
  unfold headTurns
  rw [hbody]
  exact ⟨_, _, rfl, led_pass r _ _ b⟩

/-- The first pass ends well between the opening of the page and the event behind it. -/
theorem ok_of_renderBody {root : View} {d : Run σ} (h : exec (r.renderBody root) a = (.ok (), d)) :
    ∃ b c, exec (r.openPage root) a = (.ok (), b) ∧ exec (r.pass b.ctx.excluded (r.remaining b.ctx)) b = (.ok (), c) ∧
      exec (r.firePage .beforeParseHead) c = (.ok (), d) := by
  obtain ⟨_, b, hopen, h⟩ := ok_of_exec_bind h
  rw [exec_bind_ok (exec_context b)] at h
  obtain ⟨_, c, hpass, hfire⟩ := ok_of_exec_bind h
  exact ⟨b, c, hopen, hpass, hfire⟩

/-- What holds when the page is open, and is kept by the rendering of a tag and by the event between the passes, is what every
turn of a document finds. -/
theorem invariant_of_mem_documentTurns {P : Run σ → Prop} {root : View}
    (hopen : ∀ {b}, exec (r.openPage root) a = (.ok (), b) → P b)
    (htag : ∀ {t c d}, P c → exec (r.renderTag t) c = (.ok (), d) → P d) (hcount : ∀ {c}, P c → P c.counted)
    (hfire : ∀ {c d}, P c → exec (r.firePage .beforeParseHead) c = (.ok (), d) → P d)
    (hu : u ∈ r.bodyTurns root a ++ r.headTurns root a) : P u.found := by
  rcases List.mem_append.mp hu with hu | hu
  · unfold bodyTurns at hu
    split at hu
    · rename_i b hb
      exact ((led_pass r _ _ b).invariant htag hcount (hopen hb)).1 u hu
    · cases hu
  · unfold headTurns at hu
    split at hu
    · rename_i d hd
      obtain ⟨b, c, hb, hpass, hc⟩ := ok_of_renderBody hd
      have hbody : P c := ((led_of_exec_pass hpass).invariant htag hcount (hopen hb)).2 rfl
      exact ((led_pass r _ _ d).invariant htag hcount (hfire hbody hc)).1 u hu
    · cases hu

/-- A document that is rendered has all its turns completed, in both passes. -/
theorem renderTag_of_mem_documentTurns {root : View} {page : String} (h : exec (r.renderFrom root) a = (.ok page, b))
    (hu : u ∈ r.bodyTurns root a ++ r.headTurns root a) : ∃ c, exec (r.renderTag u.tag) u.found = (.ok (), c) := by
  rw [renderFrom_eq] at h
  obtain ⟨_, d, hbody, hhead⟩ := ok_of_exec_bind h
  rcases List.mem_append.mp hu with hu | hu
  · obtain ⟨b, c, hopen, hpass, -⟩ := ok_of_renderBody hbody
    unfold bodyTurns at hu
    rw [hopen] at hu
    exact (led_of_exec_pass hpass).completed rfl hu
  · unfold renderHead at hhead
    rw [exec_bind_ok (exec_context d)] at hhead
    obtain ⟨_, c, hpass, -⟩ := ok_of_exec_bind hhead
    unfold headTurns at hu
    rw [hbody] at hu
    exact (led_of_exec_pass hpass).completed rfl hu

end Renderer

end Folio
