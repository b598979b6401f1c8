import Folio.Proofs.Execution
import Folio.Proofs.Occurrence

/-!
# Parse cycles, passes and renderings

`Cycle` is one completed parse cycle. `PassRun` is a pass as a finite sequence of cycles: it mentions no bound on the number
of cycles that are still allowed, only the counter that is checked at the end of each, and `passRun_exec` says that every
pass is such a sequence. `RenderRun` puts the two passes between the steps around them, with the cycles of both counted
together; every rendering is one (`renderRun_render`) and there is only one (`RenderRun.unique`).
-/

namespace Folio

/-- The state after one more parse cycle is counted. -/
def Run.counted {σ : Type} (a : Run σ) : Run σ :=
  { a with ctx := { a.ctx with cycles := a.ctx.cycles + 1 } }

namespace Renderer

open Rendering

variable {σ : Type} (r : Renderer σ)

/-- A completed parse cycle leads from `a` to `b`: the page has tags, all of them are dealt with, and the cycle is counted. -/
def Cycle (excluded : List String) (a b : Run σ) : Prop :=
  Tag.parse a.ctx.renderedPage excluded ≠ [] ∧
    ∃ mid, exec (r.renderTags (Tag.parse a.ctx.renderedPage excluded)) a = (.ok (), mid) ∧ b = mid.counted

/-- A pass from one state to another, with its result and the number of cycles that it completes. -/
inductive PassRun (excluded : List String) : Nat → Run σ → Except RenderError Unit → Run σ → Prop where
  | clean {a : Run σ} : Tag.parse a.ctx.renderedPage excluded = [] → PassRun excluded 0 a (.ok ()) a
  | failed {a b : Run σ} {e : RenderError} : Tag.parse a.ctx.renderedPage excluded ≠ [] →
      exec (r.renderTags (Tag.parse a.ctx.renderedPage excluded)) a = (.error e, b) → PassRun excluded 0 a (.error e) b
  | broken {a b : Run σ} : r.Cycle excluded a b → r.settings.maxIterations < b.ctx.cycles →
      PassRun excluded 1 a (.error (.loopLimit r.settings.maxIterations)) b
  | again {n : Nat} {a b c : Run σ} {res : Except RenderError Unit} : r.Cycle excluded a b →
      b.ctx.cycles ≤ r.settings.maxIterations → PassRun excluded n b res c → PassRun excluded (n + 1) a res c

/-- A rendering from its opening state to its end, with its result and the number of cycles that both passes complete. -/
inductive RenderRun (root : View) : Nat → Run σ → Except RenderError String → Run σ → Prop where
  | unopened {a b : Run σ} {e : RenderError} : exec (r.openPage root) a = (.error e, b) →
      RenderRun root 0 a (.error e) b
  | body {n : Nat} {a b c : Run σ} {e : RenderError} : exec (r.openPage root) a = (.ok (), b) →
      r.PassRun b.ctx.excluded n b (.error e) c → RenderRun root n a (.error e) c
  | head {n m : Nat} {a b c d z : Run σ} {e : RenderError} : exec (r.openPage root) a = (.ok (), b) →
      r.PassRun b.ctx.excluded n b (.ok ()) c → exec (r.firePage .beforeParseHead) c = (.ok (), d) →
      r.PassRun [] m d (.error e) z → RenderRun root (n + m) a (.error e) z
  | done {n m : Nat} {a b c d y z : Run σ} : exec (r.openPage root) a = (.ok (), b) →
      r.PassRun b.ctx.excluded n b (.ok ()) c → exec (r.firePage .beforeParseHead) c = (.ok (), d) →
      r.PassRun [] m d (.ok ()) y → exec (r.firePage .afterRender) y = (.ok (), z) →
      RenderRun root (n + m) a (.ok z.ctx.renderedPage) z

variable {r} {excluded : List String} {a b c : Run σ}

/-! ## Cycles -/

/-- A completed cycle counts as one, and leaves the deferred words and the seeds alone. -/
theorem Cycle.level (h : r.Cycle excluded a b) :
    b.ctx.cycles = a.ctx.cycles + 1 ∧ b.ctx.excluded = a.ctx.excluded ∧ b.ctx.seeds = a.ctx.seeds := by
  obtain ⟨-, mid, hmid, rfl⟩ := h
  have hl := (local_renderTags r _).level_of_exec hmid
  exact ⟨congrArg (· + 1) hl.cycles, hl.excluded, hl.seeds⟩

/-- What a cycle does comes on top of what was recorded before, and concerns tags. -/
theorem Cycle.grown (h : r.Cycle excluded a b) : a.Grown Event.OfTag b := by
  obtain ⟨-, mid, hmid, rfl⟩ := h
  have hg := (local_renderTags r _).grown_of_exec hmid
  exact hg

/-- A tag that the page holds is rendered; the others are passed over. -/
theorem exec_renderTags_cons (t : Tag) (rest : List Tag) (a : Run σ) :
    exec (r.renderTags (t :: rest)) a =
      if Text.contains a.ctx.renderedPage t.raw then exec (r.renderTag t >>= fun _ => r.renderTags rest) a
      else exec (r.renderTags rest) a := by
  rw [renderTags, exec_bind_ok (exec_context a)]
  dsimp only
  split <;> rfl

/-- A completed cycle renders the first of the tags that it finds. -/
theorem Cycle.renders (h : r.Cycle excluded a b) :
    ∃ t rest mid, Tag.parse a.ctx.renderedPage excluded = t :: rest ∧ exec (r.renderTag t) a = (.ok (), mid) := by
  obtain ⟨hne, mid, hmid, -⟩ := h
  obtain ⟨t, rest, htags⟩ := List.exists_cons_of_ne_nil hne
  have hmem : t ∈ Tag.parse a.ctx.renderedPage excluded := by
    rw [htags]
    exact List.mem_cons_self
  have hin := Tag.contains_of_mem_parse hmem
  rw [htags, exec_renderTags_cons, if_pos hin] at hmid
  obtain ⟨_, b, hb, -⟩ := ok_of_exec_bind hmid
  exact ⟨t, rest, b, htags, hb⟩

/-! ## Passes -/

/-- A pass over a page without tags does nothing. -/
theorem exec_pass_clean (allowed : Nat) (h : Tag.parse a.ctx.renderedPage excluded = []) :
    exec (r.pass excluded allowed) a = (.ok (), a) := by
  rw [pass.eq_def, exec_bind_ok (exec_context a), h]
  rfl

/-- A pass fails where a cycle of it does. -/
theorem exec_pass_failed {e : RenderError} (allowed : Nat) (h : Tag.parse a.ctx.renderedPage excluded ≠ [])
    (hb : exec (r.renderTags (Tag.parse a.ctx.renderedPage excluded)) a = (.error e, b)) :
    exec (r.pass excluded allowed) a = (.error e, b) := by
  rw [pass.eq_def, exec_bind_ok (exec_context a)]
  split
  · rename_i hp
    exact absurd hp h
  · exact exec_bind_error hb

/-- After a completed cycle a pass goes on while a further cycle is allowed. -/
theorem exec_pass_cycle (allowed : Nat) (h : r.Cycle excluded a b) :
    exec (r.pass excluded allowed) a =
      match allowed with
      | 0 => (.error (.loopLimit r.settings.maxIterations), b)
      | allowed + 1 => exec (r.pass excluded allowed) b := by
  obtain ⟨hne, mid, hmid, rfl⟩ := h
  rw [pass.eq_def, exec_bind_ok (exec_context a)]
  split
  · rename_i hp
    exact absurd hp hne
  · rw [exec_bind_ok hmid, exec_bind_ok (exec_change _ mid)]
    cases allowed <;> rfl

/-- From every state a pass ends at once, fails in its first cycle, or completes that. -/
theorem clean_or_failed_or_cycle (r : Renderer σ) (excluded : List String) (a : Run σ) :
    Tag.parse a.ctx.renderedPage excluded = [] ∨
      (Tag.parse a.ctx.renderedPage excluded ≠ [] ∧
        ∃ e b, exec (r.renderTags (Tag.parse a.ctx.renderedPage excluded)) a = (.error e, b)) ∨
      ∃ b, r.Cycle excluded a b := by
  rcases Classical.em (Tag.parse a.ctx.renderedPage excluded = []) with hp | hp
  · exact Or.inl hp
  · rcases hx : exec (r.renderTags (Tag.parse a.ctx.renderedPage excluded)) a with ⟨e | v, b⟩
    · exact Or.inr (Or.inl ⟨hp, e, b, rfl⟩)
    · exact Or.inr (Or.inr ⟨b.counted, hp, b, hx, rfl⟩)

/-- Induction along a pass: it ends at once, fails in its first cycle, or completes that, and then goes on with one cycle less
allowed, or is at the end of what is allowed. -/
theorem pass_induction (r : Renderer σ) (excluded : List String) {motive : Nat → Run σ → Prop}
    (clean : ∀ allowed a, Tag.parse a.ctx.renderedPage excluded = [] → motive allowed a)
    (failed : ∀ allowed a e b, Tag.parse a.ctx.renderedPage excluded ≠ [] →
      exec (r.renderTags (Tag.parse a.ctx.renderedPage excluded)) a = (.error e, b) → motive allowed a)
    (last : ∀ a b, r.Cycle excluded a b → motive 0 a)
    (again : ∀ allowed a b, r.Cycle excluded a b → motive allowed b → motive (allowed + 1) a) (allowed : Nat) (a : Run σ) :
    motive allowed a := by
  induction allowed generalizing a with
  | zero =>
    rcases clean_or_failed_or_cycle r excluded a with hp | ⟨hp, e, b, hb⟩ | ⟨b, hc⟩
    · exact clean 0 a hp
    · exact failed 0 a e b hp hb
    · exact last a b hc
  | succ allowed ih =>
    rcases clean_or_failed_or_cycle r excluded a with hp | ⟨hp, e, b, hb⟩ | ⟨b, hc⟩
    · exact clean (allowed + 1) a hp
    · exact failed (allowed + 1) a e b hp hb
    · exact again allowed a b hc (ih b)

/-- A pass that is allowed what its counter leaves is a finite sequence of cycles. -/
theorem passRun_exec (r : Renderer σ) (excluded : List String) (a : Run σ) :
    ∃ n, r.PassRun excluded n a (exec (r.pass excluded (r.remaining a.ctx)) a).1
      (exec (r.pass excluded (r.remaining a.ctx)) a).2 := by
  -- a completed cycle uses up one of the cycles that are left, or breaks the limit
  generalize hallowed : r.remaining a.ctx = allowed
  induction allowed, a using pass_induction r excluded with
  | clean allowed a hp =>
    rw [exec_pass_clean _ hp]
    exact ⟨0, .clean hp⟩
  | failed allowed a e b hp hb =>
    rw [exec_pass_failed _ hp hb]
    exact ⟨0, .failed hp hb⟩
  | last a b hc =>
    have hcount := hc.level.1
    unfold remaining at hallowed
    have hlt : r.settings.maxIterations < b.ctx.cycles := by omega
    rw [exec_pass_cycle _ hc]
    exact ⟨1, .broken hc hlt⟩
  | again allowed a b hc ih =>
    have hcount := hc.level.1
    unfold remaining at hallowed
    have hle : b.ctx.cycles ≤ r.settings.maxIterations := by omega
    obtain ⟨n, hn⟩ := ih (by unfold remaining; omega)
    rw [exec_pass_cycle _ hc]
    exact ⟨n + 1, .again hc hle hn⟩

/-- A pass ends as its sequence of cycles says. -/
theorem PassRun.exec_pass {n : Nat} {res : Except RenderError Unit} (h : r.PassRun excluded n a res b) :
    exec (r.pass excluded (r.remaining a.ctx)) a = (res, b) := by
  induction h with
  | clean hp => exact exec_pass_clean _ hp
  | failed hp hb => exact exec_pass_failed _ hp hb
  | broken hc hlt =>
    have hcount := hc.level.1
    rw [exec_pass_cycle _ hc, show r.remaining _ = 0 from by unfold remaining; omega]
  | @again n a b c res hc hle _ ih =>
    have hcount := hc.level.1
    have hleft : r.remaining a.ctx = r.remaining b.ctx + 1 := by
      unfold remaining
      omega
    rw [exec_pass_cycle _ hc, hleft]
    exact ih

/-- A pass adds the cycles that it completes to the counter, and leaves the deferred words and the seeds alone. -/
theorem PassRun.level {n : Nat} {res : Except RenderError Unit} (h : r.PassRun excluded n a res b) :
    b.ctx.cycles = a.ctx.cycles + n ∧ b.ctx.excluded = a.ctx.excluded ∧ b.ctx.seeds = a.ctx.seeds := by
  induction h with
  | clean => exact ⟨rfl, rfl, rfl⟩
  | failed _ hb =>
    have hl := (local_renderTags r _).level_of_exec hb
    exact ⟨hl.cycles, hl.excluded, hl.seeds⟩
  | broken hc => exact hc.level
  | again hc _ _ ih =>
    obtain ⟨hcount, hexcluded, hseeds⟩ := hc.level
    refine ⟨?_, ih.2.1.trans hexcluded, ih.2.2.trans hseeds⟩
    rw [ih.1, hcount]
    omega

/-- What a pass does comes on top of what was recorded before, and concerns tags. -/
theorem PassRun.grown {n : Nat} {res : Except RenderError Unit} (h : r.PassRun excluded n a res b) :
    a.Grown Event.OfTag b := by
  induction h with
  | clean => exact Run.Grown.refl _
  | failed _ hb => exact (local_renderTags r _).grown_of_exec hb
  | broken hc => exact hc.grown
  | again hc _ _ ih => exact hc.grown.trans ih

/-! ## Renderings -/

/-- An event that concerns the page never fails. -/
theorem exec_firePage (r : Renderer σ) (event : Event) (a : Run σ) :
    exec (r.firePage event) a = (.ok (), (exec (r.fire event a.ctx.pagePayload) a).2) := by
  unfold firePage
  rw [exec_bind_ok (exec_context a), exec_bind_ok (exec_fire r event _ a)]
  rfl

/-- The state in which a rendering begins. -/
def initial (r : Renderer σ) (runtime : Runtime) (listener : σ) : Run σ :=
  { ctx := r.openingContext runtime, listener }

/-- Every rendering opens a page and runs its two passes, with the steps around them. -/
theorem renderRun_render (r : Renderer σ) (root : View) (runtime : Runtime) (listener : σ) :
    ∃ n, r.RenderRun root n (r.initial runtime listener) (r.render root runtime listener).1
      (r.render root runtime listener).2 := by
  change ∃ n, r.RenderRun root n (r.initial runtime listener) (exec (r.renderFrom root) (r.initial runtime listener)).1
    (exec (r.renderFrom root) (r.initial runtime listener)).2
  unfold renderFrom
  rcases hopen : exec (r.openPage root) (r.initial runtime listener) with ⟨e | v, b⟩
  · rw [exec_bind_error hopen]
    exact ⟨0, .unopened hopen⟩
  rw [exec_bind_ok hopen, exec_bind_ok (exec_context b)]
  obtain ⟨n, hn⟩ := passRun_exec r b.ctx.excluded b
  rcases hbody : exec (r.pass b.ctx.excluded (r.remaining b.ctx)) b with ⟨e | v, c⟩
  · rw [hbody] at hn
    rw [exec_bind_error hbody]
    exact ⟨n, .body hopen hn⟩
  rw [hbody] at hn
  have hfire := exec_firePage r .beforeParseHead c
  generalize (exec (r.fire .beforeParseHead c.ctx.pagePayload) c).2 = d at hfire
  rw [exec_bind_ok hbody, exec_bind_ok hfire, exec_bind_ok (exec_context d)]
  obtain ⟨m, hm⟩ := passRun_exec r [] d
  rcases hhead : exec (r.pass [] (r.remaining d.ctx)) d with ⟨e | v, y⟩
  · rw [hhead] at hm
    rw [exec_bind_error hhead]
    exact ⟨n + m, .head hopen hn hfire hm⟩
  rw [hhead] at hm
  have hlast := exec_firePage r .afterRender y
  rw [exec_bind_ok hhead, exec_bind_ok hlast]
  exact ⟨n + m, .done hopen hn hfire hm hlast⟩

/-- A rendering ends as its two passes say. -/
theorem RenderRun.exec_renderFrom {root : View} {n : Nat} {res : Except RenderError String} (h : r.RenderRun root n a res b) :
    exec (r.renderFrom root) a = (res, b) := by
  unfold renderFrom
  cases h with
  | unopened hopen => exact exec_bind_error hopen
  | @body n a b c e hopen hbody =>
    rw [exec_bind_ok hopen, exec_bind_ok (exec_context b), exec_bind_error hbody.exec_pass]
  | @head n m a b c d z e hopen hbody hfire hhead =>
    rw [exec_bind_ok hopen, exec_bind_ok (exec_context b), exec_bind_ok hbody.exec_pass, exec_bind_ok hfire,
      exec_bind_ok (exec_context d), exec_bind_error hhead.exec_pass]
  | @done n m a b c d y z hopen hbody hfire hhead hlast =>
    rw [exec_bind_ok hopen, exec_bind_ok (exec_context b), exec_bind_ok hbody.exec_pass, exec_bind_ok hfire,
      exec_bind_ok (exec_context d), exec_bind_ok hhead.exec_pass, exec_bind_ok hlast, exec_bind_ok (exec_context _)]
    rfl

/-- What is done before the passes and around them leaves the counter alone. -/
theorem cycles_openPage {root : View} {res : Except RenderError Unit} (h : exec (r.openPage root) a = (res, b)) :
    b.ctx.cycles = a.ctx.cycles :=
  ((local_openPage r root).level_of_exec h).cycles

theorem cycles_firePage {event : Event} (h : exec (r.firePage event) a = (.ok (), b)) : b.ctx.cycles = a.ctx.cycles :=
  ((local_firePage r event).level_of_exec h).cycles

/-- A rendering adds the cycles of both passes to the counter, and nothing else does. -/
theorem RenderRun.cycles {root : View} {n : Nat} {res : Except RenderError String} (h : r.RenderRun root n a res b) :
    b.ctx.cycles = a.ctx.cycles + n := by
  cases h with
  | unopened hopen => exact cycles_openPage hopen
  | body hopen hbody => rw [hbody.level.1, cycles_openPage hopen]
  | head hopen hbody hfire hhead =>
    rw [hhead.level.1, cycles_firePage hfire, hbody.level.1, cycles_openPage hopen]
    omega
  | done hopen hbody hfire hhead hlast =>
    rw [cycles_firePage hlast, hhead.level.1, cycles_firePage hfire, hbody.level.1, cycles_openPage hopen]
    omega

/-- A rendering has one result, one end and one number of cycles. -/
theorem RenderRun.unique {root : View} {n m : Nat} {res res' : Except RenderError String}
    (h : r.RenderRun root n a res b) (h' : r.RenderRun root m a res' c) : n = m ∧ res = res' ∧ b = c := by
  have hexec := h.exec_renderFrom
  rw [h'.exec_renderFrom, Prod.mk.injEq] at hexec
  obtain ⟨rfl, rfl⟩ := hexec
  refine ⟨?_, rfl, rfl⟩
  have hn := h.cycles
  have hm := h'.cycles
  omega

/-! ## Events of the page -/

/-- An event that concerns the page is fired last. -/
theorem events_firePage {event : Event} (h : exec (r.firePage event) a = (.ok (), b)) :
    b.events = a.events ++ [(event, a.ctx.pagePayload)] := by
  rw [exec_firePage, exec_fire, Prod.mk.injEq] at h
  rw [← h.2]
  simp [Run.events, Moment.event?]

theorem mem_events_firePage {event : Event} (h : exec (r.firePage event) a = (.ok (), b)) {x : Event × Payload} :
    x ∈ b.events ↔ x ∈ a.events ∨ x = (event, a.ctx.pagePayload) := by
  rw [events_firePage h, List.mem_append, List.mem_singleton]

/-- Opening the page fires one event. -/
theorem not_mem_events_openPage {root : View} {res : Except RenderError Unit} (h : exec (r.openPage root) a = (res, b))
    (hnew : a.events = []) {event : Event} (hevent : event ≠ .beforeParse) (payload : Payload) :
    (event, payload) ∉ b.events := by
  intro hmem
  rcases ((local_openPage r root).grown_of_exec h).mem_events_or hmem with hmem | heq
  · rw [hnew] at hmem
    cases hmem
  · exact hevent heq

/-- A pass fires no event that concerns the page. -/
theorem PassRun.mem_events {n : Nat} {res : Except RenderError Unit} (h : r.PassRun excluded n a res b) {event : Event}
    (hevent : ¬ event.OfTag) {payload : Payload} (hmem : (event, payload) ∈ b.events) : (event, payload) ∈ a.events :=
  (h.grown.mem_events_or hmem).resolve_right hevent

/-- What a listener is told between the passes is told of the page at the end of the first. -/
theorem RenderRun.payload_of_beforeParseHead {root : View} {n : Nat} {res : Except RenderError String}
    (h : r.RenderRun root n a res b) (hnew : a.events = []) {payload : Payload}
    (hmem : (.beforeParseHead, payload) ∈ b.events) :
    ∃ k c d, exec (r.openPage root) a = (.ok (), c) ∧ r.PassRun c.ctx.excluded k c (.ok ()) d ∧
      payload = d.ctx.pagePayload := by
  have hof : ¬ Event.OfTag .beforeParseHead := by decide
  have body {c d : Run σ} {k : Nat} {res : Except RenderError Unit} (ho : exec (r.openPage root) a = (.ok (), c))
      (hp : r.PassRun c.ctx.excluded k c res d) : (.beforeParseHead, payload) ∉ d.events :=
    fun hmem => not_mem_events_openPage ho hnew (by decide) payload (hp.mem_events hof hmem)
  have between {c d e : Run σ} {k : Nat} (ho : exec (r.openPage root) a = (.ok (), c))
      (hp : r.PassRun c.ctx.excluded k c (.ok ()) d) (hf : exec (r.firePage .beforeParseHead) d = (.ok (), e))
      (hmem : (.beforeParseHead, payload) ∈ e.events) : payload = d.ctx.pagePayload := by
    rcases (mem_events_firePage hf).mp hmem with hmem | heq
    · exact absurd hmem (body ho hp)
    · exact (Prod.mk.inj heq).2
  cases h with
  | unopened hopen => exact absurd hmem (not_mem_events_openPage hopen hnew (by decide) payload)
  | body hopen hbody => exact absurd hmem (body hopen hbody)
  | head hopen hbody hfire hhead =>
    exact ⟨_, _, _, hopen, hbody, between hopen hbody hfire (hhead.mem_events hof hmem)⟩
  | done hopen hbody hfire hhead hlast =>
    rcases (mem_events_firePage hlast).mp hmem with hmem | heq
    · exact ⟨_, _, _, hopen, hbody, between hopen hbody hfire (hhead.mem_events hof hmem)⟩
    · cases heq

/-- What a listener is told at the end is told of the page at the end of the second pass. -/
theorem RenderRun.payload_of_afterRender {root : View} {n : Nat} {res : Except RenderError String}
    (h : r.RenderRun root n a res b) (hnew : a.events = []) {payload : Payload}
    (hmem : (.afterRender, payload) ∈ b.events) :
    ∃ k d y, r.PassRun [] k d (.ok ()) y ∧ payload = y.ctx.pagePayload := by
  have hof : ¬ Event.OfTag .afterRender := by decide
  have body {c d : Run σ} {k : Nat} {res : Except RenderError Unit} (ho : exec (r.openPage root) a = (.ok (), c))
      (hp : r.PassRun c.ctx.excluded k c res d) : (.afterRender, payload) ∉ d.events :=
    fun hmem => not_mem_events_openPage ho hnew (by decide) payload (hp.mem_events hof hmem)
  have head {c d e y : Run σ} {k m : Nat} {res : Except RenderError Unit} (ho : exec (r.openPage root) a = (.ok (), c))
      (hp : r.PassRun c.ctx.excluded k c (.ok ()) d) (hf : exec (r.firePage .beforeParseHead) d = (.ok (), e))
      (hh : r.PassRun [] m e res y) : (.afterRender, payload) ∉ y.events := by
    intro hmem
    rcases (mem_events_firePage hf).mp (hh.mem_events hof hmem) with hmem | heq
    · exact body ho hp hmem
    · cases heq
  cases h with
  | unopened hopen => exact absurd hmem (not_mem_events_openPage hopen hnew (by decide) payload)
  | body hopen hbody => exact absurd hmem (body hopen hbody)
  | head hopen hbody hfire hhead => exact absurd hmem (head hopen hbody hfire hhead)
  | done hopen hbody hfire hhead hlast =>
    rcases (mem_events_firePage hlast).mp hmem with hmem | heq
    · exact absurd hmem (head hopen hbody hfire hhead)
    · exact ⟨_, _, _, hhead, (Prod.mk.inj heq).2⟩

/-- A rendering that ends well told its listener so between the passes. -/
theorem RenderRun.exists_beforeParseHead {root : View} {n : Nat} {page : String} (h : r.RenderRun root n a (.ok page) b) :
    ∃ payload, (.beforeParseHead, payload) ∈ b.events := by
  cases h with
  | @done n m a b c d y z hopen hbody hfire hhead hlast =>
    refine ⟨c.ctx.pagePayload, ?_⟩
    have hmem : (.beforeParseHead, c.ctx.pagePayload) ∈ d.events := (mem_events_firePage hfire).mpr (Or.inr rfl)
    exact (mem_events_firePage hlast).mpr (Or.inl (hhead.grown.mem_events hmem))

end Renderer

end Folio
