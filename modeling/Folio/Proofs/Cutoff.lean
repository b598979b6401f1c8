import Folio.Proofs.Coupling
import Folio.Proofs.Limit

/-!
# The limit is only a cut-off

`withLimit` gives a renderer another limit and nothing else. What is done for a tag does not look at the limit
(`exec_renderTags_withLimit`), so a pass under a small limit is step by step the pass under a larger one, until it ends or is
cut off (`PassRun.raise`). The same holds of both passes together (`RenderRun.raise`), and so of the rendering of a document
(`render_withLimit`): under the larger limit it ends in the same way, or goes on where the smaller one stopped it.
-/

namespace Folio

/-- What has been fired stays at the front of what is fired later. -/
theorem Run.Grown.events_prefix {σ : Type} {fires : Event → Prop} {a b : Run σ} (h : a.Grown fires b) :
    a.events <+: b.events := by
  obtain ⟨added, hb, -⟩ := h
  simp only [Run.events, hb, List.reverse_append, List.filterMap_append]
  exact List.prefix_append _ _

namespace Renderer

open Rendering

variable {σ : Type}

/-- The renderer with another limit on parse cycles. -/
def withLimit (r : Renderer σ) (limit : Nat) : Renderer σ :=
  { r with settings := { r.settings with maxIterations := limit } }

variable {r : Renderer σ} {limit limit' : Nat}

/-! ## What does not look at the limit -/

/-- Every step goes like itself from one and the same state. -/
theorem sim_self {α : Type} (x : Rendering σ α) : Sim Eq x x := by
  rintro a _ rfl
  exact ⟨rfl, rfl⟩

/-- What is done for a view does not look at the limit. -/
theorem coupling_withLimit (r : Renderer σ) (limit : Nat) : Coupling r (r.withLimit limit) Eq where
  resolve := rfl
  hasTemplate := rfl
  alike := by
    rintro a _ rfl
    exact ⟨rfl, rfl, rfl, rfl, rfl, rfl⟩
  change f _ := sim_self _
  run path scene := sim_self (r.run path scene)
  fireRow event row _ := sim_self (r.fireRow event row)

theorem sim_renderTag (t : Tag) : Sim Eq (r.renderTag t) ((r.withLimit limit).renderTag t) :=
  ((coupling_withLimit r limit).output (fun v t => sim_self (r.prepare v t)) t).bind fun _ => sim_self _

/-- The tags of a cycle are rendered alike under every limit. -/
theorem exec_renderTags_withLimit (tags : List Tag) (a : Run σ) :
    exec ((r.withLimit limit).renderTags tags) a = exec (r.renderTags tags) a := by
  have hsim : Sim Eq (r.renderTags tags) ((r.withLimit limit).renderTags tags) :=
    Coupling.renderTags (by rintro a _ rfl; rfl) sim_renderTag tags
  obtain ⟨hres, hstate⟩ := hsim a a rfl
  exact (Prod.ext hres hstate).symm

theorem cycle_withLimit {excluded : List String} {a b : Run σ} :
    (r.withLimit limit).Cycle excluded a b ↔ r.Cycle excluded a b := by
  unfold Cycle
  rw [exec_renderTags_withLimit]

/-! ## Passes and renderings under a larger limit -/

variable {excluded : List String} {a b c : Run σ}

/-- A pass under a small limit is a pass under a larger one, or it is cut off and the other goes on from where it stopped. -/
theorem PassRun.raise {n : Nat} {res : Except RenderError Unit} (hle : limit ≤ limit')
    (h : (r.withLimit limit).PassRun excluded n a res b) :
    (r.withLimit limit').PassRun excluded n a res b ∨
      (res = .error (.loopLimit limit) ∧
        ∃ m res' c, (r.withLimit limit').PassRun excluded m a res' c ∧ b.events <+: c.events) := by
  induction h with
  | clean hp => exact Or.inl (.clean hp)
  | failed hp hb =>
    rw [exec_renderTags_withLimit] at hb
    exact Or.inl (.failed hp (by rw [exec_renderTags_withLimit]; exact hb))
  | @broken a b hc _ =>
    rw [cycle_withLimit] at hc
    have hc' : (r.withLimit limit').Cycle excluded a b := cycle_withLimit.mpr hc
    refine Or.inr ⟨rfl, ?_⟩
    -- the larger limit is broken by the same cycle, or leaves room for more
    by_cases hroom : b.ctx.cycles ≤ limit'
    · obtain ⟨m, hm⟩ := passRun_exec (r.withLimit limit') excluded b
      exact ⟨m + 1, _, _, .again hc' hroom hm, hm.grown.events_prefix⟩
    · exact ⟨1, _, b, .broken hc' (Nat.lt_of_not_le hroom), List.prefix_refl _⟩
  | @again n a b c res hc hleft _ ih =>
    rw [cycle_withLimit] at hc
    have hc' : (r.withLimit limit').Cycle excluded a b := cycle_withLimit.mpr hc
    have hleft' := Nat.le_trans hleft hle
    rcases ih with hsame | ⟨hres, m, res', c, hm, hgrown⟩
    · exact Or.inl (.again hc' hleft' hsame)
    · exact Or.inr ⟨hres, m + 1, res', c, .again hc' hleft' hm, hgrown⟩

/-- An event that concerns the page comes behind what was fired before. -/
theorem events_prefix_firePage {event : Event} (h : exec (r.firePage event) a = (.ok (), b)) : a.events <+: b.events := by
  rw [events_firePage h]
  exact List.prefix_append _ _

/-- A rendering goes on to its end from the end of its second pass. -/
theorem RenderRun.of_head {root : View} {n m : Nat} {d e : Run σ} {res : Except RenderError Unit}
    (hopen : exec (r.openPage root) a = (.ok (), b)) (hbody : r.PassRun b.ctx.excluded n b (.ok ()) c)
    (hfire : exec (r.firePage .beforeParseHead) c = (.ok (), d)) (hhead : r.PassRun [] m d res e) :
    ∃ res' z, r.RenderRun root (n + m) a res' z ∧ e.events <+: z.events := by
  cases res with
  | error err => exact ⟨_, e, .head hopen hbody hfire hhead, List.prefix_refl _⟩
  | ok =>
    have hlast := exec_firePage r .afterRender e
    exact ⟨_, _, .done hopen hbody hfire hhead hlast, events_prefix_firePage hlast⟩

/-- A rendering goes on to its end from the end of its first pass. -/
theorem RenderRun.of_body {root : View} {n : Nat} {res : Except RenderError Unit}
    (hopen : exec (r.openPage root) a = (.ok (), b)) (hbody : r.PassRun b.ctx.excluded n b res c) :
    ∃ m res' z, r.RenderRun root m a res' z ∧ c.events <+: z.events := by
  cases res with
  | error err => exact ⟨n, _, c, .body hopen hbody, List.prefix_refl _⟩
  | ok =>
    have hfire := exec_firePage r .beforeParseHead c
    obtain ⟨m, hm⟩ := passRun_exec r [] (exec (r.fire .beforeParseHead c.ctx.pagePayload) c).2
    obtain ⟨res', z, hz, hgrown⟩ := RenderRun.of_head hopen hbody hfire hm
    exact ⟨n + m, res', z, hz, ((events_prefix_firePage hfire).trans hm.grown.events_prefix).trans hgrown⟩

/-- A rendering under a small limit is a rendering under a larger one, or it is cut off and the other goes on from where it
stopped. -/
theorem RenderRun.raise {root : View} {n : Nat} {res : Except RenderError String} (hle : limit ≤ limit')
    (h : (r.withLimit limit).RenderRun root n a res b) :
    (r.withLimit limit').RenderRun root n a res b ∨
      (res = .error (.loopLimit limit) ∧
        ∃ m res' c, (r.withLimit limit').RenderRun root m a res' c ∧ b.events <+: c.events) := by
  cases h with
  | unopened hopen => exact Or.inl (.unopened hopen)
  | body hopen hbody =>
    rcases hbody.raise hle with hsame | ⟨hres, m, res', c, hm, hgrown⟩
    · exact Or.inl (.body hopen hsame)
    · cases hres
      obtain ⟨m', res'', z, hz, hgrown'⟩ := RenderRun.of_body (r := r.withLimit limit') hopen hm
      exact Or.inr ⟨rfl, m', res'', z, hz, hgrown.trans hgrown'⟩
  | head hopen hbody hfire hhead =>
    rcases hbody.raise hle with hbody' | ⟨hres, -⟩
    · rcases hhead.raise hle with hsame | ⟨hres, m, res', c, hm, hgrown⟩
      · exact Or.inl (.head hopen hbody' hfire hsame)
      · cases hres
        obtain ⟨res'', z, hz, hgrown'⟩ := RenderRun.of_head (r := r.withLimit limit') hopen hbody' hfire hm
        exact Or.inr ⟨rfl, _, res'', z, hz, hgrown.trans hgrown'⟩
    · cases hres
  | done hopen hbody hfire hhead hlast =>
    rcases hbody.raise hle with hbody' | ⟨hres, -⟩
    · rcases hhead.raise hle with hhead' | ⟨hres, -⟩
      · exact Or.inl (.done hopen hbody' hfire hhead' hlast)
      · cases hres
    · cases hres

/-- Of two renderings that differ in their limits, the one with the smaller limit is cut off with what it has fired so far, and
that is how the other begins; or both are the same from beginning to end, with one result and one record of events. So a larger
limit never changes a document that was rendered, and a smaller one gives the same document or is reported. -/
theorem render_withLimit (r : Renderer σ) (root : View) (runtime : Runtime) (listener : σ) {limit limit' : Nat}
    (hle : limit ≤ limit') :
    let short := (r.withLimit limit).render root runtime listener
    let long := (r.withLimit limit').render root runtime listener
    ((short.1 = .error (.loopLimit limit) ∧ short.2.events <+: long.2.events) ∨
        (short.1 = long.1 ∧ short.2 = long.2 ∧ short.2.events = long.2.events)) ∧
      (∀ page, short.1 = .ok page → long.1 = .ok page) ∧
      (∀ page, long.1 = .ok page → short.1 = .ok page ∨ short.1 = .error (.loopLimit limit)) := by
  intro short long
  obtain ⟨n, hn⟩ := renderRun_render (r.withLimit limit) root runtime listener
  obtain ⟨n', hn'⟩ := renderRun_render (r.withLimit limit') root runtime listener
  have hcut : (short.1 = .error (.loopLimit limit) ∧ short.2.events <+: long.2.events) ∨
      (short.1 = long.1 ∧ short.2 = long.2) := by
    rcases hn.raise hle with hsame | ⟨hres, m, res', c, hm, hgrown⟩
    · obtain ⟨-, hres, hstate⟩ := hsame.unique hn'
      exact Or.inr ⟨hres, hstate⟩
    · obtain ⟨-, -, hstate⟩ := hm.unique hn'
      rw [hstate] at hgrown
      exact Or.inl ⟨hres, hgrown⟩
  refine ⟨?_, ?_, ?_⟩
  · exact hcut.imp id fun ⟨hres, hstate⟩ => ⟨hres, hstate, congrArg Run.events hstate⟩
  · intro page hpage
    rcases hcut with ⟨hres, -⟩ | ⟨hres, -⟩
    · rw [hpage] at hres
      cases hres
    · rw [← hres, hpage]
  · intro page hpage
    rcases hcut with ⟨hres, -⟩ | ⟨hres, -⟩
    · exact Or.inr hres
    · exact Or.inl (by rw [hres, hpage])

/-- A renderer of one page in every theme. -/
def onePage : Renderer Unit where
  resolve _ := some (.conventional .page "a")
  hasTemplate _ := true
  execute path _ := .ok (if path = "theme/default.tera" then "[<include page=a />]" else "A")
  listener := Listener.silent

/-- `render_withLimit` of `onePage`, which needs one cycle: without any it is cut off, and one is enough. -/
theorem render_withLimit_onePage :
    0 ≤ 1 ∧ ((onePage.withLimit 1).render (.conventional .theme "default") {} ()).1 = .ok "[A]" ∧
      ((onePage.withLimit 0).render (.conventional .theme "default") {} ()).1 = .error (.loopLimit 0) ∧
      ((onePage.withLimit 0).render (.conventional .theme "default") {} ()).2.events <+:
        ((onePage.withLimit 1).render (.conventional .theme "default") {} ()).2.events := by
  have hle : 0 ≤ 1 := by decide
  have hlong : ((onePage.withLimit 1).render (.conventional .theme "default") {} ()).1 = .ok "[A]" :=
    eq_ok_of_toOption (by decide +kernel)
  have hshort : ((onePage.withLimit 0).render (.conventional .theme "default") {} ()).1.toOption = none := by
    decide +kernel
  obtain ⟨hcut, -, -⟩ := render_withLimit onePage (.conventional .theme "default") {} () hle
  rcases hcut with ⟨hres, hevents⟩ | ⟨hres, -⟩
  · exact ⟨hle, hlong, hres, hevents⟩
  · rw [hres, hlong] at hshort
    cases hshort

end Renderer

end Folio
