import Folio.Proofs.Coupling
import Folio.Proofs.Rows

/-!
# A renderer that tells nobody

Without a listener that answers, the output of a tag depends on nothing but the runtime and the seeds: it is `outputOf`, the
output in a fresh context (`exec_output`). Rendering a tag then puts that output in the place of its text, and leaves the
runtime as it is (`exec_renderTag_ok`).
-/

namespace Folio

namespace Renderer

open Rendering

variable {r : Renderer Unit}

/-- The state of a rendering in which nothing has happened yet, with a runtime and its seeds. -/
def fresh (r : Renderer Unit) (runtime : Runtime) : Run Unit :=
  { ctx := { runtime, seeds := r.seedsOf runtime.route }, listener := () }

/-- The output of a tag in a fresh context. -/
def outputOf (r : Renderer Unit) (runtime : Runtime) (t : Tag) : Except RenderError String :=
  (exec (r.output t) (r.fresh runtime)).1

/-- The output of a root in a fresh context: the page that a document begins with. -/
def rootText (r : Renderer Unit) (root : View) (runtime : Runtime) : Except RenderError String :=
  (exec (r.renderPage root [("page_name", .text runtime.route.page)]) (r.fresh runtime)).1

/-- An event is recorded, and nothing comes of it. -/
theorem exec_fire_silent (hs : r.listener = Listener.silent) (event : Event) (payload : Payload) (a : Run Unit) :
    exec (r.fire event payload) a = (.ok .unchanged, { a with recorded := .fired event payload :: a.recorded }) := by
  rw [exec_fire, hs]
  rfl

/-- Two states are alike for a view, and the first has a certain page and runtime. -/
def Beside (page : String) (runtime : Runtime) (a b : Run Unit) : Prop :=
  a.ctx.Alike b.ctx ∧ a.ctx.renderedPage = page ∧ a.ctx.runtime = runtime

/-- What is done for a view goes the same way in alike states, and leaves the page and the runtime as they are. -/
theorem silent_coupling (hs : r.listener = Listener.silent) (page : String) (runtime : Runtime) :
    Coupling r r (Beside page runtime) where
  resolve := rfl
  hasTemplate := rfl
  alike h := h.1
  change f hf := by
    rintro a b ⟨halike, hpage, hruntime⟩
    exact ⟨rfl, hf.alike halike, (hf.page _).trans hpage, (hf.runtime _).trans hruntime⟩
  run path scene := by
    intro a b h
    rw [exec_run, exec_run]
    exact ⟨rfl, h⟩
  fireRow event row _ := by
    intro a b h
    unfold fireRow
    rw [exec_bind_ok (exec_context a), exec_bind_ok (exec_fire_silent hs _ _ a), exec_bind_ok (exec_context b),
      exec_bind_ok (exec_fire_silent hs _ _ b)]
    exact ⟨rfl, h⟩

/-- Preparing a view puts its data in place, or fails as its binding does. -/
theorem exec_prepare (hs : r.listener = Listener.silent) (v : View) (t : Tag) (a : Run Unit) :
    (∃ e, bind v a.ctx.runtime = .error e ∧ exec (r.prepare v t) a = (.error (.binding e), a)) ∨
      ∃ bound b, bind v a.ctx.runtime = .ok bound ∧ exec (r.prepare v t) a = (.ok (), b) ∧
        b.ctx = a.ctx.beginView bound.rows
          (Keyed.extend bound.parameters (t.attributes.map fun (k, s) => (k, Data.text s))) bound.modelRegistry :=
  exec_prepare_repeats (hs ▸ .of_unchanged fun _ _ _ => rfl) v t a

/-- The output of a tag is the one in a fresh context, whatever was rendered before, and the page and the runtime stay. -/
theorem exec_output (hs : r.listener = Listener.silent) {a : Run Unit} {runtime : Runtime}
    (hruntime : a.ctx.runtime = runtime) (hseeds : a.ctx.seeds = r.seedsOf runtime.route) (t : Tag) :
    (exec (r.output t) a).1 = r.outputOf runtime t ∧
      (exec (r.output t) a).2.ctx.renderedPage = a.ctx.renderedPage ∧ (exec (r.output t) a).2.ctx.runtime = runtime := by
  unfold outputOf output
  rw [exec_bind_ok (exec_context a), exec_bind_ok (exec_context (r.fresh runtime)), hseeds]
  have hseeds' : (r.fresh runtime).ctx.seeds = r.seedsOf runtime.route := rfl
  rw [hseeds']
  cases r.resolveSeeded (r.seedsOf runtime.route) t with
  | error e => exact ⟨rfl, rfl, hruntime⟩
  | ok v =>
    dsimp only
    have hfresh : (r.fresh runtime).ctx.runtime = runtime := rfl
    rcases exec_prepare hs v t a with ⟨e, hbound, ha⟩ | ⟨bound, a', hbound, ha, hctx⟩
    · rcases exec_prepare hs v t (r.fresh runtime) with ⟨e', hbound', hb⟩ | ⟨bound', b', hbound', -⟩
      · rw [hruntime] at hbound
        rw [hfresh, hbound, Except.error.injEq] at hbound'
        rw [exec_bind_error ha, exec_bind_error hb, hbound']
        exact ⟨rfl, rfl, hruntime⟩
      · rw [hruntime] at hbound
        rw [hfresh, hbound] at hbound'
        cases hbound'
    · rcases exec_prepare hs v t (r.fresh runtime) with ⟨e', hbound', -⟩ | ⟨bound', b', hbound', hb, hctx'⟩
      · rw [hruntime] at hbound
        rw [hfresh, hbound] at hbound'
        cases hbound'
      · rw [hruntime] at hbound
        rw [hfresh, hbound, Except.ok.injEq] at hbound'
        subst hbound'
        have hbeside : Beside a.ctx.renderedPage runtime a' b' := by
          unfold Beside
          rw [hctx, hctx']
          exact ⟨⟨rfl, hruntime, rfl, rfl, rfl, hseeds⟩, rfl, hruntime⟩
        rw [exec_bind_ok ha, exec_bind_ok hb]
        obtain ⟨hres, -, hpage, hruntime'⟩ :=
          (silent_coupling hs a.ctx.renderedPage runtime).renderTarget v t a' b' hbeside
        exact ⟨hres, hpage, hruntime'⟩

/-- Rendering a tag that has an output puts it in the place of the tag. -/
theorem exec_renderTag_ok (hs : r.listener = Listener.silent) {a : Run Unit} {runtime : Runtime}
    (hruntime : a.ctx.runtime = runtime) (hseeds : a.ctx.seeds = r.seedsOf runtime.route) {t : Tag} {o : String}
    (ho : r.outputOf runtime t = .ok o) :
    ∃ b, exec (r.renderTag t) a = (.ok (), b) ∧ b.ctx.renderedPage = Text.replaceAll a.ctx.renderedPage t.raw o ∧
      b.ctx.runtime = runtime := by
  obtain ⟨hres, hpage, hruntime'⟩ := exec_output hs hruntime hseeds t
  rw [ho] at hres
  rcases hout : exec (r.output t) a with ⟨e | o', c⟩
  · rw [hout] at hres
    cases hres
  · rw [hout] at hres hpage hruntime'
    cases hres
    unfold renderTag
    rw [exec_bind_ok hout, exec_bind_ok (exec_change _ c), exec_bind_ok (exec_context _),
      exec_bind_ok (exec_fire_silent hs _ _ _), exec_change]
    refine ⟨_, rfl, ?_, hruntime'⟩
    dsimp only at hpage ⊢
    rw [hpage]

/-- Rendering a tag without an output fails for the same reason. -/
theorem exec_renderTag_error (hs : r.listener = Listener.silent) {a : Run Unit} {runtime : Runtime}
    (hruntime : a.ctx.runtime = runtime) (hseeds : a.ctx.seeds = r.seedsOf runtime.route) {t : Tag} {e : RenderError}
    (ho : r.outputOf runtime t = .error e) : ∃ b, exec (r.renderTag t) a = (.error e, b) := by
  obtain ⟨hres, -⟩ := exec_output hs hruntime hseeds t
  rw [ho] at hres
  rcases hout : exec (r.output t) a with ⟨e' | o, c⟩
  · rw [hout] at hres
    cases hres
    exact ⟨c, exec_bind_error hout⟩
  · rw [hout] at hres
    cases hres

/-- A document begins with the text of its root. -/
theorem exec_openPage (hs : r.listener = Listener.silent) {root : View} {runtime : Runtime} {a : Run Unit}
    (halike : a.ctx.Alike (r.fresh runtime).ctx) {page : String} (hpage : r.rootText root runtime = .ok page) :
    ∃ b, exec (r.openPage root) a = (.ok (), b) ∧ b.ctx.renderedPage = page ∧ b.ctx.runtime = runtime := by
  unfold openPage firePage
  rw [exec_bind, exec_bind_ok (exec_context a), exec_bind_ok (exec_fire_silent hs _ _ a)]
  dsimp only [exec_pure]
  rw [exec_bind_ok (exec_context _)]
  dsimp only
  rw [halike.runtime]
  generalize hc : ({ a with recorded := .fired .beforeParse a.ctx.pagePayload :: a.recorded } : Run Unit) = c
  have hbeside : Beside a.ctx.renderedPage runtime c (r.fresh runtime) := by
    rw [← hc]
    exact ⟨halike, rfl, halike.runtime⟩
  obtain ⟨hres, -, -, hruntime⟩ := (silent_coupling hs a.ctx.renderedPage runtime).renderPage root
    [("page_name", .text runtime.route.page)] c (r.fresh runtime) hbeside
  have hfresh : (r.fresh runtime).ctx.runtime.route.page = runtime.route.page := rfl
  rw [hfresh]
  unfold rootText at hpage
  rw [hpage] at hres
  rcases hout : exec (r.renderPage root [("page_name", .text runtime.route.page)]) c with ⟨e | o, d⟩
  · rw [hout] at hres
    cases hres
  · rw [hout] at hres hruntime
    cases hres
    rw [exec_bind_ok hout]
    exact ⟨_, rfl, rfl, hruntime⟩

end Renderer

end Folio
