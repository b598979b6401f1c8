import Folio.Proofs.Execution

/-!
# Two renderings side by side

`Sim R x y` says that two steps give the same result from states that `R` relates, and end in states that it relates. What a
view makes of its data is such a pair as soon as the events and the templates are (`Coupling`): it depends on nothing but the
parts of the context that concern the view (`Context.Alike`). `silent_coupling` is the pair of a renderer that tells nobody
with itself, on two states that differ in everything else.
-/

namespace Folio

/-- Two contexts are the same in everything that a view can depend on. -/
structure Context.Alike (a b : Context) : Prop where
  renderedView : a.renderedView = b.renderedView
  runtime : a.runtime = b.runtime
  rows : a.rows = b.rows
  parameters : a.parameters = b.parameters
  modelRegistry : a.modelRegistry = b.modelRegistry
  seeds : a.seeds = b.seeds

/-- Alike contexts show a template the same. -/
theorem Context.Alike.scene {a b : Context} (h : a.Alike b) (row : Row) : a.scene row = b.scene row := by
  unfold Context.scene
  rw [h.rows, h.parameters, h.modelRegistry, h.runtime]

/-- A change of the current view: it depends on what concerns the view, and changes neither the page nor the runtime. -/
structure ViewChange (f : Context → Context) : Prop where
  alike : ∀ {c c' : Context}, c.Alike c' → (f c).Alike (f c')
  page : ∀ c, (f c).renderedPage = c.renderedPage
  runtime : ∀ c, (f c).runtime = c.runtime

namespace Rendering

variable {σ τ α β : Type}

/-- From related states two steps give the same result, and end in related states. -/
def Sim (R : Run σ → Run τ → Prop) (x : Rendering σ α) (y : Rendering τ α) : Prop :=
  ∀ a b, R a b → (exec x a).1 = (exec y b).1 ∧ R (exec x a).2 (exec y b).2

namespace Sim

variable {R : Run σ → Run τ → Prop}

theorem ret (v : α) : Sim R (pure v) (pure v) := fun _ _ h => ⟨rfl, h⟩

theorem fail (e : RenderError) : Sim R (throw e : Rendering σ α) (throw e) := fun _ _ h => ⟨rfl, h⟩

theorem bind {x : Rendering σ α} {y : Rendering τ α} {f : α → Rendering σ β} {g : α → Rendering τ β} (hx : Sim R x y)
    (hf : ∀ v, Sim R (f v) (g v)) : Sim R (x >>= f) (y >>= g) := by
  intro a b h
  obtain ⟨hres, hR⟩ := hx a b h
  rw [exec_bind, exec_bind]
  rcases hxa : exec x a with ⟨e | v, a'⟩
  · rcases hyb : exec y b with ⟨e' | w, b'⟩
    · rw [hxa, hyb] at hres hR
      cases hres
      exact ⟨rfl, hR⟩
    · rw [hxa, hyb] at hres
      cases hres
  · rcases hyb : exec y b with ⟨e' | w, b'⟩
    · rw [hxa, hyb] at hres
      cases hres
    · rw [hxa, hyb] at hres hR
      cases hres
      exact hf v a' b' hR

/-- Where the contexts are the same, so may be what is done with them. -/
theorem context {f : Context → Rendering σ α} {g : Context → Rendering τ α} (hctx : ∀ {a b}, R a b → a.ctx = b.ctx)
    (hf : ∀ ctx, Sim R (f ctx) (g ctx)) : Sim R (Renderer.context >>= f) (Renderer.context >>= g) := by
  intro a b h
  rw [exec_bind_ok (exec_context a), exec_bind_ok (exec_context b), ← hctx h]
  exact hf a.ctx a b h

end Sim

end Rendering

open Rendering

/-- Two renderers with the same views and templates, and related states from which what they do for a view goes the same way:
they find it alike, and neither its changes nor its templates nor its rows lead out of the relation. -/
structure Coupling {σ τ : Type} (r : Renderer σ) (s : Renderer τ) (R : Run σ → Run τ → Prop) : Prop where
  resolve : s.resolve = r.resolve
  hasTemplate : s.hasTemplate = r.hasTemplate
  alike : ∀ {a b}, R a b → a.ctx.Alike b.ctx
  change : ∀ f, ViewChange f → Sim R (Renderer.change f) (Renderer.change f)
  run : ∀ path scene, Sim R (r.run path scene) (s.run path scene)
  fireRow : ∀ event row, Event.OfTag event → Sim R (r.fireRow event row) (s.fireRow event row)

namespace Coupling

variable {σ τ α : Type} {r : Renderer σ} {s : Renderer τ} {R : Run σ → Run τ → Prop}

/-- What is done with the context may depend on what is alike in both. -/
theorem context (h : Coupling r s R) {f : Context → Rendering σ α} {g : Context → Rendering τ α}
    (hf : ∀ c c', c.Alike c' → Sim R (f c) (g c')) : Sim R (Renderer.context >>= f) (Renderer.context >>= g) := by
  intro a b hR
  rw [exec_bind_ok (exec_context a), exec_bind_ok (exec_context b)]
  exact hf a.ctx b.ctx (h.alike hR) a b hR

/-- A template that is executed for a row is shown the same. -/
theorem runScene (h : Coupling r s R) (path : String) (row : Row) :
    Sim R (Renderer.context >>= fun c => r.run path (c.scene row))
      (Renderer.context >>= fun c => s.run path (c.scene row)) := by
  refine h.context fun c c' halike => ?_
  rw [halike.scene]
  exact h.run path _

theorem appendRegion (h : Coupling r s R) (v : View) (region : Region) (row : Row) :
    Sim R (r.appendRegion v region row) (s.appendRegion v region row) := by
  unfold Renderer.appendRegion
  dsimp only
  rw [h.hasTemplate]
  split
  · refine h.context fun c c' halike => ?_
    rw [halike.scene]
    refine (h.run _ _).bind fun output => h.change _ ⟨?_, fun _ => rfl, fun _ => rfl⟩
    intro c c' halike
    exact { halike with renderedView := by rw [halike.renderedView] }
  · exact .ret _

theorem renderPage (h : Coupling r s R) (v : View) (row : Row) : Sim R (r.renderPage v row) (s.renderPage v row) := by
  unfold Renderer.renderPage
  rw [h.hasTemplate]
  split
  · exact h.runScene _ _
  · exact .fail _

/-- The last thing that is done for a row is to put it among the rows. -/
theorem setRow (h : Coupling r s R) (index : Nat) (row : Row) :
    Sim R (Renderer.change fun ctx => { ctx with rows := ctx.rows.set index row })
      (Renderer.change fun ctx => { ctx with rows := ctx.rows.set index row }) := by
  refine h.change _ ⟨?_, fun _ => rfl, fun _ => rfl⟩
  intro c c' halike
  exact { halike with rows := by rw [halike.rows] }

theorem renderStages (h : Coupling r s R) (v : View) {stages : List (Event × Region)}
    (hstages : ∀ stage ∈ stages, Event.OfTag stage.1) (row : Row) :
    Sim R (r.renderStages v stages row) (s.renderStages v stages row) := by
  induction stages generalizing row with
  | nil => exact .ret _
  | cons stage rest ih =>
    obtain ⟨hstage, hrest⟩ := List.forall_mem_cons.mp hstages
    have hsim : Sim R (r.renderStage v stage row) (s.renderStage v stage row) :=
      (h.fireRow _ _ hstage).bind fun row => (h.appendRegion _ _ _).bind fun _ => .ret _
    exact hsim.bind (ih hrest)

theorem renderRow (h : Coupling r s R) (v : View) (total index : Nat) (parity : String) (row : Row) :
    Sim R (r.renderRow v total index parity row) (s.renderRow v total index parity row) := by
  have place : ViewChange fun ctx => { ctx with parameters := Keyed.extend ctx.parameters (placeFields parity index total) } := by
    refine ⟨?_, fun _ => rfl, fun _ => rfl⟩
    intro c c' halike
    exact { halike with parameters := by rw [halike.parameters] }
  rw [Renderer.renderRow_eq, Renderer.renderRow_eq]
  refine (h.change _ place).bind fun _ => ?_
  exact (h.renderStages v (fun _ => Renderer.ofTag_of_mem_stagesOf) _).bind fun _ => h.setRow _ _

theorem renderRows (h : Coupling r s R) (v : View) (total index : Nat) (parity : String) (rows : List Row) :
    Sim R (r.renderRows v total index parity rows) (s.renderRows v total index parity rows) := by
  induction rows generalizing index parity with
  | nil => exact .ret _
  | cons row rest ih => exact (h.renderRow _ _ _ _ _).bind fun _ => ih _ _

/-- A view without any of its files fails on both sides; otherwise both steps go on. -/
theorem unless_missing (v : View) (missing : Bool) {x : Rendering σ α} {y : Rendering τ α} (hx : Sim R x y) :
    Sim R (if missing then throw (.notFound v.includePath) >>= fun _ : Unit => x else x)
      (if missing then throw (.notFound v.includePath) >>= fun _ : Unit => y else y) := by
  split
  · exact (Sim.fail _).bind fun _ => hx
  · exact hx

theorem hasAnyRegion (h : Coupling r s R) (v : View) (regions : List Region) :
    s.hasAnyRegion v regions = r.hasAnyRegion v regions := by
  unfold Renderer.hasAnyRegion
  rw [h.hasTemplate]

theorem renderTemplate (h : Coupling r s R) (v : View) : Sim R (r.renderTemplate v) (s.renderTemplate v) := by
  have setView (output : Context → String) (hout : ∀ {c c'}, c.Alike c' → output c = output c') :
      Sim R (Renderer.change fun ctx => { ctx with renderedView := output ctx })
        (Renderer.change fun ctx => { ctx with renderedView := output ctx }) := by
    refine h.change _ ⟨?_, fun _ => rfl, fun _ => rfl⟩
    intro c c' halike
    exact { halike with renderedView := hout halike }
  unfold Renderer.renderTemplate
  rw [h.hasAnyRegion]
  refine unless_missing v _ ?_
  dsimp only
  rw [h.hasTemplate]
  split
  · refine h.context fun c c' halike => ?_
    rw [halike.rows, halike.scene]
    exact (h.run _ _).bind fun output => (setView (fun _ => output) fun _ => rfl).bind fun _ => .ret _
  · refine (setView (fun _ => "") fun _ => rfl).bind fun _ => h.context fun c c' halike => ?_
    rw [halike.rows]
    refine (h.renderRows _ _ _ _ _).bind fun _ => h.context fun c c' halike => ?_
    rw [halike.renderedView]
    exact .ret _

theorem runRegions (h : Coupling r s R) (v : View) (scene : Scene) (regions : List Region) :
    Sim R (r.runRegions v scene regions) (s.runRegions v scene regions) := by
  induction regions with
  | nil => exact .ret _
  | cons region rest ih =>
    unfold Renderer.runRegions
    dsimp only
    rw [h.hasTemplate]
    split
    · exact (h.run _ _).bind fun _ => ih.bind fun _ => .ret _
    · exact (Sim.ret _).bind fun _ => ih.bind fun _ => .ret _

theorem renderWrap (h : Coupling r s R) (v : View) (content : String) :
    Sim R (r.renderWrap v content) (s.renderWrap v content) := by
  unfold Renderer.renderWrap
  rw [h.hasAnyRegion]
  refine unless_missing v _ ?_
  refine h.context fun c c' halike => ?_
  rw [halike.runtime]
  exact h.runRegions _ _ _

theorem renderView (h : Coupling r s R) (v : View) : Sim R (r.renderView v) (s.renderView v) := by
  unfold Renderer.renderView
  split
  · refine h.context fun c c' halike => ?_
    rw [halike.rows]
    exact h.renderPage _ _
  · refine h.context fun c c' halike => ?_
    rw [halike.rows]
    exact h.renderPage _ _
  · exact h.renderTemplate v
  · refine h.context fun c c' halike => ?_
    rw [halike.renderedView]
    exact h.renderWrap _ _

/-- What a view resolves to does not depend on the state. -/
theorem lookup (h : Coupling r s R) (scheme : Scheme) (name : String) : s.lookup scheme name = r.lookup scheme name := by
  unfold Renderer.lookup
  rw [h.resolve]

/-- The output of a view goes the same way on both sides, with the wrap that its tag asks for. -/
theorem renderTarget (h : Coupling r s R) (v : View) (t : Tag) : Sim R (r.renderTarget v t) (s.renderTarget v t) := by
  have hwrap (seeds : Seeds) : s.resolveWrap seeds t.wrap = r.resolveWrap seeds t.wrap := by
    unfold Renderer.resolveWrap
    rw [h.lookup]
  unfold Renderer.renderTarget
  refine (h.renderView v).bind fun output => ?_
  split
  · exact .ret _
  · refine h.context fun c c' halike => ?_
    rw [hwrap, halike.seeds]
    split
    · exact h.renderWrap _ _
    · exact .fail _

/-- The output of a tag goes the same way on both sides if the preparation of its view does. -/
theorem output (h : Coupling r s R) (hprepare : ∀ v t, Sim R (r.prepare v t) (s.prepare v t)) (t : Tag) :
    Sim R (r.output t) (s.output t) := by
  have hresolve (seeds : Seeds) : s.resolveSeeded seeds t = r.resolveSeeded seeds t := by
    unfold Renderer.resolveSeeded Renderer.resolveTag
    rw [h.lookup]
  unfold Renderer.output
  refine h.context fun c c' halike => ?_
  rw [hresolve, halike.seeds]
  split
  · exact .fail _
  · exact (hprepare _ t).bind fun _ => h.renderTarget _ t

/-- The tags of a cycle go the same way on both sides if each of them does, on pages that are the same. -/
theorem renderTags (hpage : ∀ {a b}, R a b → a.ctx.renderedPage = b.ctx.renderedPage)
    (htag : ∀ t, Sim R (r.renderTag t) (s.renderTag t)) (tags : List Tag) : Sim R (r.renderTags tags) (s.renderTags tags) := by
  induction tags with
  | nil => exact .ret _
  | cons t rest ih =>
    unfold Renderer.renderTags
    intro a b hR
    rw [exec_bind_ok (exec_context a), exec_bind_ok (exec_context b), hpage hR]
    split
    · exact ((htag t).bind fun _ => ih) a b hR
    · exact ih a b hR

/-- The page of a document is opened the same way on both sides, where the contexts are the same, if the event before it goes the
same way and its page may be put in place. -/
theorem openPage (h : Coupling r s R) (hctx : ∀ {a b}, R a b → a.ctx = b.ctx)
    (hfire : Sim R (r.firePage .beforeParse) (s.firePage .beforeParse))
    (hpage : ∀ page, Sim R (Renderer.change fun ctx => { ctx with renderedPage := page })
      (Renderer.change fun ctx => { ctx with renderedPage := page })) (root : View) :
    Sim R (r.openPage root) (s.openPage root) :=
  hfire.bind fun _ => .context hctx fun _ => (h.renderPage root _).bind hpage

end Coupling

end Folio
