import Folio.Proofs.Cycle

/-!
# The limit on parse cycles

The counter is checked at the end of every cycle, and nothing between two checks can touch it. So a pass that begins within
the limit goes at most one cycle beyond it, and when it does it ends with the error of the limit (`PassRun.within`). Both passes
share the counter, which gives the same for a whole rendering (`render_within_limit`). A template can fail with that error of its
own accord, whatever the limit is and however few cycles there were, and a listener can put tags into a page that had none
(`render_not_within_limit`).
-/

namespace Folio

namespace Renderer

open Rendering

variable {σ : Type}

/-- How the number of completed cycles goes with a result and the state at the end. -/
structure Within {α : Type} (r : Renderer σ) (n : Nat) (res : Except RenderError α) (b : Run σ) : Prop where
  atMost : n ≤ r.settings.maxIterations + 1
  beyond : n = r.settings.maxIterations + 1 → res = .error (.loopLimit r.settings.maxIterations)
  reported : ∀ e, b.Reports r e → res = .error e ∧ n ≤ r.settings.maxIterations
  raised : ∀ limit, res = .error (.loopLimit limit) → ¬ b.Reports r (.loopLimit limit) →
    limit = r.settings.maxIterations ∧ n = r.settings.maxIterations + 1

variable {r : Renderer σ} {excluded : List String} {a b : Run σ}

/-- What ends well ends within the limit. -/
theorem Within.of_ok {α : Type} {n : Nat} {v : α} (h : r.Within n (.ok v) b) : n ≤ r.settings.maxIterations := by
  have hne : n ≠ r.settings.maxIterations + 1 := fun hn => by cases h.beyond hn
  have hle := h.atMost
  omega

/-- Whatever fails in another way fails within the limit. -/
theorem Within.of_error {α : Type} {n : Nat} {e : RenderError} (h : r.Within n (.error e : Except RenderError α) b)
    (he : ∀ limit, e ≠ .loopLimit limit) : n ≤ r.settings.maxIterations := by
  have hne : n ≠ r.settings.maxIterations + 1 := fun hn => he _ (Except.error.inj (h.beyond hn))
  have hle := h.atMost
  omega

/-- What a failure says of the cycles does not depend on the value that was expected. -/
theorem within_error {α β : Type} {n : Nat} {e : RenderError} (h : r.Within n (.error e : Except RenderError α) b) :
    r.Within n (.error e : Except RenderError β) b where
  atMost := h.atMost
  beyond hn := congrArg Except.error (Except.error.inj (h.beyond hn))
  reported e' he' := ⟨congrArg Except.error (Except.error.inj (h.reported e' he').1), (h.reported e' he').2⟩
  raised limit heq := h.raised limit (congrArg Except.error (Except.error.inj heq))

theorem within_ok {α : Type} {n : Nat} (v : α) (hb : b.Unreported r) (hn : n ≤ r.settings.maxIterations) :
    r.Within n (.ok v) b :=
  ⟨Nat.le_succ_of_le hn, fun h => by omega, fun e he => absurd he (hb e), nofun⟩

/-- A step that concerns the current view fails within the limit where it begins there. -/
theorem within_of_local {α : Type} {fires : Event → Prop} {x : Rendering σ α} {n : Nat} {e : RenderError} (hx : Local r fires x)
    (ha : a.Unreported r) (h : exec x a = (.error e, b)) (hn : n ≤ r.settings.maxIterations) :
    r.Within n (.error e : Except RenderError α) b := by
  refine ⟨Nat.le_succ_of_le hn, fun hbeyond => by omega, fun e' he' => ⟨hx.reports ha h he', hn⟩, fun limit heq hnot => ?_⟩
  rw [heq] at h
  exact absurd (hx.raises h) hnot

/-- After a completed cycle no template has just failed. -/
theorem Cycle.unreported (h : r.Cycle excluded a b) (ha : a.Unreported r) : b.Unreported r := by
  obtain ⟨-, mid, hmid, rfl⟩ := h
  have hend : mid.Unreported r := (local_renderTags r _).unreported ha hmid
  exact hend

/-- A pass that begins within the limit ends within it, or one cycle beyond with the error of the limit. -/
theorem PassRun.within {n : Nat} {res : Except RenderError Unit} (h : r.PassRun excluded n a res b) (hnew : a.Unreported r)
    (ha : a.ctx.cycles ≤ r.settings.maxIterations) : r.Within b.ctx.cycles res b := by
  induction h with
  | clean => exact within_ok () hnew ha
  | failed _ hb =>
    refine within_of_local (local_renderTags r _) hnew hb ?_
    rw [((local_renderTags r _).level_of_exec hb).cycles]
    exact ha
  | broken hc hlt =>
    have hcount := hc.level.1
    have hend := hc.unreported hnew
    refine ⟨by omega, fun _ => rfl, fun e he => absurd he (hend e), fun limit heq _ => ⟨?_, by omega⟩⟩
    rw [Except.error.injEq, RenderError.loopLimit.injEq] at heq
    exact heq.symm
  | again hc hle _ ih => exact ih (hc.unreported hnew) hle

/-- After a pass that ends well no template has just failed. -/
theorem PassRun.unreported {n : Nat} (h : r.PassRun excluded n a (.ok ()) b) (hnew : a.Unreported r) : b.Unreported r := by
  generalize hres : (Except.ok () : Except RenderError Unit) = res at h
  induction h with
  | clean => exact hnew
  | failed => cases hres
  | broken => cases hres
  | again hc _ _ ih => exact ih (hc.unreported hnew) hres

/-- A rendering that begins within the limit ends within it, or one cycle beyond with the error of the limit. -/
theorem RenderRun.within {root : View} {n : Nat} {res : Except RenderError String} (h : r.RenderRun root n a res b)
    (hnew : a.Unreported r) (ha : a.ctx.cycles ≤ r.settings.maxIterations) : r.Within b.ctx.cycles res b := by
  cases h with
  | unopened hopen =>
    refine within_error (within_of_local (local_openPage r root) hnew hopen ?_)
    rw [cycles_openPage hopen]
    exact ha
  | body hopen hbody =>
    rw [← cycles_openPage hopen] at ha
    exact within_error (hbody.within ((local_openPage r root).unreported hnew hopen) ha)
  | head hopen hbody hfire hhead =>
    have hopened := (local_openPage r root).unreported hnew hopen
    have hbetween := (local_firePage r .beforeParseHead).unreported (hbody.unreported hopened) hfire
    rw [← cycles_openPage hopen] at ha
    have hmid := (hbody.within hopened ha).of_ok
    rw [← cycles_firePage hfire] at hmid
    exact within_error (hhead.within hbetween hmid)
  | done hopen hbody hfire hhead hlast =>
    have hopened := (local_openPage r root).unreported hnew hopen
    have hbetween := (local_firePage r .beforeParseHead).unreported (hbody.unreported hopened) hfire
    rw [← cycles_openPage hopen] at ha
    have hmid := (hbody.within hopened ha).of_ok
    rw [← cycles_firePage hfire] at hmid
    have hend := (hhead.within hbetween hmid).of_ok
    rw [← cycles_firePage hlast] at hend
    exact within_ok _ ((local_firePage r .afterRender).unreported (hhead.unreported hbetween) hlast) hend

/-- Nothing to do in either pass means no cycle and no failure, whatever the limit. -/
theorem RenderRun.without_tags {root : View} {n : Nat} {res : Except RenderError String} {c d : Run σ}
    (h : r.RenderRun root n a res b) (hopen : exec (r.openPage root) a = (.ok (), c))
    (hbody : Tag.parse c.ctx.renderedPage c.ctx.excluded = []) (hfire : exec (r.firePage .beforeParseHead) c = (.ok (), d))
    (hhead : Tag.parse d.ctx.renderedPage [] = []) : n = 0 ∧ ∃ page, res = .ok page := by
  have hrun := RenderRun.done hopen (PassRun.clean hbody) hfire (PassRun.clean hhead) (exec_firePage r .afterRender d)
  obtain ⟨rfl, rfl, -⟩ := h.unique hrun
  exact ⟨rfl, _, rfl⟩

/-- Every rendering ends, after finitely many parse cycles over both passes, and the counter is their number. It is never
driven past a largest value that lies above the limit. Every completed cycle counts as one and renders a tag. What ends well or
with another error than that of the limit completes no more cycles than are allowed. The error of a template that fails is passed
on as it is, after no more cycles either. Any other error of the limit tells the limit of the settings, one cycle beyond it, and
nothing else is told there. A page that has no tags where the passes begin needs no cycle. -/
theorem render_within_limit (r : Renderer σ) (root : View) (runtime : Runtime) (listener : σ) :
    let res := (r.render root runtime listener).1
    let final := (r.render root runtime listener).2
    ∃ n, r.RenderRun root n (r.initial runtime listener) res final ∧
      (∀ m res' final', r.RenderRun root m (r.initial runtime listener) res' final' → m = n) ∧
      final.ctx.cycles = n ∧
      (∀ largest, r.settings.maxIterations < largest → n ≤ largest) ∧
      (∀ excluded a b, r.Cycle excluded a b → b.ctx.cycles = a.ctx.cycles + 1 ∧
        ∃ t rest mid, Tag.parse a.ctx.renderedPage excluded = t :: rest ∧ exec (r.renderTag t) a = (.ok (), mid)) ∧
      (∀ page, res = .ok page → n ≤ r.settings.maxIterations) ∧
      (∀ e, res = .error e → (∀ limit, e ≠ .loopLimit limit) → n ≤ r.settings.maxIterations) ∧
      (∀ e, final.Reports r e → res = .error e ∧ n ≤ r.settings.maxIterations) ∧
      (∀ limit, res = .error (.loopLimit limit) → ¬ final.Reports r (.loopLimit limit) →
        limit = r.settings.maxIterations ∧ n = r.settings.maxIterations + 1) ∧
      (n = r.settings.maxIterations + 1 → res = .error (.loopLimit r.settings.maxIterations)) ∧
      (∀ b c, exec (r.openPage root) (r.initial runtime listener) = (.ok (), b) →
        Tag.parse b.ctx.renderedPage b.ctx.excluded = [] → exec (r.firePage .beforeParseHead) b = (.ok (), c) →
        Tag.parse c.ctx.renderedPage [] = [] → n = 0 ∧ ∃ page, res = .ok page) := by
  intro res final
  obtain ⟨n, hn⟩ := renderRun_render r root runtime listener
  have hcycles : final.ctx.cycles = n := by
    have hsum := hn.cycles
    change (r.render root runtime listener).2.ctx.cycles = n
    rw [hsum]
    exact Nat.zero_add n
  have hnew : (r.initial runtime listener).Unreported r := by
    rintro e ⟨path, scene, rest, hlast, -⟩
    cases hlast
  have hwithin : r.Within n res final := hcycles ▸ hn.within hnew (Nat.zero_le _)
  refine ⟨n, hn, fun m res' final' hm => (hm.unique hn).1, hcycles, fun largest hlargest => ?_, ?_, ?_, ?_, hwithin.reported,
    hwithin.raised, hwithin.beyond, fun b c => hn.without_tags⟩
  · exact Nat.le_trans hwithin.atMost hlargest
  · exact fun excluded a b hc => ⟨hc.level.1, hc.renders⟩
  · intro page hpage
    rw [hpage] at hwithin
    exact hwithin.of_ok
  · intro e he hother
    rw [he] at hwithin
    exact hwithin.of_error hother

/-- A renderer whose templates fail with the error of a limit that is not its own. -/
def selfLimiting : Renderer Unit where
  resolve _ := none
  hasTemplate _ := true
  execute _ _ := .error (.loopLimit 7)
  listener := .silent
  settings := { maxIterations := 3 }

/-- A renderer of a theme without tags that allows no cycle. The listener puts the tag of a page in its place. -/
def inserting : Renderer Unit where
  resolve := Keyed.get? [(reference .page "a", .conventional .page "a")]
  hasTemplate _ := true
  execute path _ := .ok (if path = "page/a.tera" then "A" else "x")
  listener _ event _ := (if event = .beforeParseHead then { renderedPage := some "<include page=a />" } else .unchanged, ())
  settings := { maxIterations := 0 }

/-- The error of the limit can tell another limit, before any cycle. A page without tags can need a cycle. -/
theorem render_not_within_limit :
    (selfLimiting.settings.maxIterations = 3 ∧
      (selfLimiting.render (.conventional .theme "default") {} ()).1 = .error (.loopLimit 7) ∧
      (selfLimiting.render (.conventional .theme "default") {} ()).2.ctx.cycles = 0) ∧
    ∃ b, exec (inserting.openPage (.conventional .theme "default")) (inserting.initial {} ()) = (.ok (), b) ∧
      b.ctx.renderedPage = "x" ∧ Tag.parse b.ctx.renderedPage [] = [] ∧ inserting.settings.maxIterations = 0 ∧
      (inserting.render (.conventional .theme "default") {} ()).1 = .error (.loopLimit 0) ∧
      (inserting.render (.conventional .theme "default") {} ()).2.ctx.cycles = 1 := by
  refine ⟨⟨rfl, rfl, rfl⟩, (exec (inserting.openPage (.conventional .theme "default")) (inserting.initial {} ())).2, ?_, ?_, ?_, ?_,
    ?_, ?_⟩
  · rfl
  · decide +kernel
  · decide +kernel
  · rfl
  · exact eq_error_of_failure? (by decide +kernel)
  · decide +kernel

end Renderer

end Folio
