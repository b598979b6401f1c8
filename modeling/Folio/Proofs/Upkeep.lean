import Folio.Proofs.Coupling
import Folio.Proofs.Turns

/-!
# What a listener keeps of the runtime

The runtime is given to a rendering once, and after that only a listener can replace it. So a property of the runtime that the
answers of the listener do not lose (`Listener.Keeps`) is kept by everything that is done for a document. In terms of `Sim`: each
step goes like itself from all states that have the property, and ends in one (`SameWith`). Every turn of a document then finds
the property as soon as the runtime of the request has it (`runtime_of_mem_documentTurns`).
-/

namespace Folio

/-- From a runtime with a property, a listener answers with none but such. -/
def Listener.Keeps {σ : Type} (l : Listener σ) (P : Runtime → Prop) : Prop :=
  ∀ s event payload, P payload.runtime → ∀ runtime ∈ (l s event payload).1.runtime, P runtime

namespace Renderer

open Rendering

variable {σ : Type} {r : Renderer σ} {P : Runtime → Prop} {a b : Run σ}

/-- One and the same state, whose runtime has a property. -/
def SameWith (P : Runtime → Prop) (a a' : Run σ) : Prop :=
  a = a' ∧ P a.ctx.runtime

theorem SameWith.ctx {a a' : Run σ} (h : SameWith P a a') : a.ctx = a'.ctx :=
  congrArg Run.ctx h.1

/-- A step that goes like itself from all states with a property ends in one. -/
theorem runtime_of_sim {α : Type} {x : Rendering σ α} {res : Except RenderError α} (h : Sim (SameWith P) x x)
    (ha : P a.ctx.runtime) (hx : exec x a = (res, b)) : P b.ctx.runtime := by
  have hend := (h a a ⟨rfl, ha⟩).2.2
  rw [hx] at hend
  exact hend

theorem sim_change_keeps {f : Context → Context} (hf : ∀ ctx, (f ctx).runtime = ctx.runtime) :
    Sim (SameWith (σ := σ) P) (change f) (change f) := by
  rintro a _ ⟨rfl, ha⟩
  exact ⟨rfl, rfl, (congrArg P (hf a.ctx)).mpr ha⟩

section

variable (hkeeps : r.listener.Keeps P)
include hkeeps

theorem sim_fire_keeps {α : Type} (event : Event) {payload : Context → Payload}
    (hpayload : ∀ ctx, (payload ctx).runtime = ctx.runtime) {f : Outcome → Rendering σ α}
    (hf : ∀ o, Sim (SameWith P) (f o) (f o)) :
    Sim (SameWith P) (context >>= fun ctx => r.fire event (payload ctx) >>= f)
      (context >>= fun ctx => r.fire event (payload ctx) >>= f) := by
  rintro a _ ⟨rfl, ha⟩
  rw [exec_bind_ok (exec_context a), exec_bind_ok (exec_fire r event _ a)]
  refine hf _ _ _ ⟨rfl, ?_⟩
  have hanswer := hkeeps a.listener event (payload a.ctx)
  rw [hpayload] at hanswer
  change P (a.ctx.apply (r.listener a.listener event (payload a.ctx)).1).runtime
  rw [Context.runtime_apply]
  cases hruntime : (r.listener a.listener event (payload a.ctx)).1.runtime with
  | none => exact ha
  | some runtime => exact hanswer ha runtime hruntime

/-- What is done for a view keeps what the listener keeps. -/
theorem coupling_keeps : Coupling r r (SameWith P) where
  resolve := rfl
  hasTemplate := rfl
  alike := by
    rintro a _ ⟨rfl, -⟩
    exact ⟨rfl, rfl, rfl, rfl, rfl, rfl⟩
  change f hf := sim_change_keeps hf.runtime
  run path scene := by
    rintro a _ ⟨rfl, ha⟩
    rw [exec_run]
    exact ⟨rfl, rfl, ha⟩
  fireRow event row _ := sim_fire_keeps hkeeps event (fun _ => rfl) fun _ => .ret _

theorem sim_prepare_keeps (v : View) (t : Tag) : Sim (SameWith P) (r.prepare v t) (r.prepare v t) := by
  unfold prepare
  refine Sim.context SameWith.ctx fun ctx => ?_
  split
  · exact .fail _
  · refine .bind (sim_change_keeps fun _ => rfl) fun _ => sim_fire_keeps hkeeps _ (fun _ => rfl) fun o => ?_
    split
    · exact sim_change_keeps fun _ => rfl
    · exact .ret _

theorem sim_content_keeps (v : View) (t : Tag) :
    Sim (SameWith P) (r.prepare v t >>= fun _ => r.renderView v) (r.prepare v t >>= fun _ => r.renderView v) :=
  (sim_prepare_keeps hkeeps v t).bind fun _ => (coupling_keeps hkeeps).renderView v

theorem sim_renderTag_keeps (t : Tag) : Sim (SameWith P) (r.renderTag t) (r.renderTag t) := by
  unfold renderTag
  refine ((coupling_keeps hkeeps).output (sim_prepare_keeps hkeeps) t).bind fun output => ?_
  refine .bind (sim_change_keeps fun _ => rfl) fun _ => sim_fire_keeps hkeeps _ (fun _ => rfl) fun _ => ?_
  exact sim_change_keeps fun _ => rfl

theorem sim_firePage_keeps (event : Event) : Sim (SameWith P) (r.firePage event) (r.firePage event) :=
  sim_fire_keeps hkeeps event (fun _ => rfl) fun _ => .ret _

theorem sim_openPage_keeps (root : View) : Sim (SameWith P) (r.openPage root) (r.openPage root) :=
  (coupling_keeps hkeeps).openPage SameWith.ctx (sim_firePage_keeps hkeeps _) (fun _ => sim_change_keeps fun _ => rfl) root

/-- Every turn of a document finds what the listener keeps of the runtime of the request. -/
theorem runtime_of_mem_documentTurns {root : View} {runtime : Runtime} {listener : σ} {u : Turn σ} (hruntime : P runtime)
    (hu : u ∈ r.bodyTurns root (r.initial runtime listener) ++ r.headTurns root (r.initial runtime listener)) :
    P u.found.ctx.runtime := by
  refine invariant_of_mem_documentTurns (P := fun a => P a.ctx.runtime) ?_ ?_ ?_ ?_ hu
  · exact fun hopen => runtime_of_sim (sim_openPage_keeps hkeeps root) hruntime hopen
  · exact fun hc ht => runtime_of_sim (sim_renderTag_keeps hkeeps _) hc ht
  · exact fun hc => hc
  · exact fun hc hfire => runtime_of_sim (sim_firePage_keeps hkeeps _) hc hfire

end

end Renderer

end Folio
