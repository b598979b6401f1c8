import Folio.Proofs.Coupling
import Folio.Proofs.Cycle
import Folio.Proofs.Rows

/-!
# Sparse outcomes

A field that an outcome leaves out means that its value stays. `Fills` says of two listeners that the second answers as the
first does, except that it may give what the first leaves out, as its payload carries it. Nothing can tell the two apart: the
outcomes lead to the same context (`Context.apply_filled`), so two renderings, one with each listener, are step by step the same
(`coupling_fills`), to the end of the document (`render_filled`).
-/

namespace Folio

/-- A field of an answer is given as before, or it is given as it was told where it was left out. -/
def FilledFrom {α : Type} (told answered given : Option α) : Prop :=
  given = answered ∨ (answered = none ∧ given = told)

/-- Giving a field as it is changes nothing. -/
theorem FilledFrom.getD_eq {α : Type} {told answered given : Option α} (h : FilledFrom told answered given) {current : α}
    (htold : ∀ v ∈ told, v = current) : given.getD current = answered.getD current := by
  rcases h with rfl | ⟨rfl, rfl⟩
  · rfl
  · cases given with
    | none => rfl
    | some v => exact htold v rfl

/-- The second outcome is the first, with some of the fields that it leaves out given as the payload carries them. A field that
the payload does not carry stays left out. -/
structure Outcome.Filled (p : Payload) (o o' : Outcome) : Prop where
  runtime : FilledFrom (some p.runtime) o.runtime o'.runtime
  parameters : FilledFrom p.parameters o.parameters o'.parameters
  modelRegistry : FilledFrom p.modelRegistry o.modelRegistry o'.modelRegistry
  queryResults : FilledFrom p.queryResults o.queryResults o'.queryResults
  renderedView : FilledFrom p.renderedView o.renderedView o'.renderedView
  renderedPage : FilledFrom p.renderedPage o.renderedPage o'.renderedPage

/-- The outcome with every field that it leaves out given as the payload carries it. -/
def Outcome.fill (o : Outcome) (p : Payload) : Outcome where
  runtime := o.runtime <|> some p.runtime
  parameters := o.parameters <|> p.parameters
  modelRegistry := o.modelRegistry <|> p.modelRegistry
  queryResults := o.queryResults <|> p.queryResults
  renderedView := o.renderedView <|> p.renderedView
  renderedPage := o.renderedPage <|> p.renderedPage

theorem filledFrom_orElse {α : Type} (told answered : Option α) : FilledFrom told answered (answered <|> told) := by
  cases answered with
  | none => exact Or.inr ⟨rfl, rfl⟩
  | some v => exact Or.inl rfl

theorem Outcome.filled_fill (o : Outcome) (p : Payload) : o.Filled p (o.fill p) where
  runtime := filledFrom_orElse _ _
  parameters := filledFrom_orElse _ _
  modelRegistry := filledFrom_orElse _ _
  queryResults := filledFrom_orElse _ _
  renderedView := filledFrom_orElse _ _
  renderedPage := filledFrom_orElse _ _

/-- What the payload tells of the context is so. -/
structure Payload.Shows (p : Payload) (ctx : Context) : Prop where
  runtime : p.runtime = ctx.runtime
  parameters : ∀ v ∈ p.parameters, v = ctx.parameters
  modelRegistry : ∀ v ∈ p.modelRegistry, v = ctx.modelRegistry
  renderedView : ∀ v ∈ p.renderedView, v = ctx.renderedView
  renderedPage : ∀ v ∈ p.renderedPage, v = ctx.renderedPage

namespace Context

theorem shows_pagePayload (ctx : Context) : ctx.pagePayload.Shows ctx :=
  ⟨rfl, nofun, nofun, nofun, fun _ h => (Option.some.inj h).symm⟩

theorem shows_viewPayload (ctx : Context) (queryResults : Option Data) : (ctx.viewPayload queryResults).Shows ctx :=
  ⟨rfl, fun _ h => (Option.some.inj h).symm, fun _ h => (Option.some.inj h).symm, fun _ h => (Option.some.inj h).symm,
    fun _ h => (Option.some.inj h).symm⟩

/-- An outcome leads to the same context when it gives more fields as they are. -/
theorem apply_filled {ctx : Context} {p : Payload} {o o' : Outcome} (hp : p.Shows ctx) (h : o.Filled p o') :
    ctx.apply o' = ctx.apply o := by
  rw [apply_eq, apply_eq, h.runtime.getD_eq fun v hv => (Option.some.inj hv).symm.trans hp.runtime,
    h.parameters.getD_eq hp.parameters, h.modelRegistry.getD_eq hp.modelRegistry, h.renderedView.getD_eq hp.renderedView,
    h.renderedPage.getD_eq hp.renderedPage]

end Context

namespace Listener

variable {σ τ : Type}

/-- The state of a listener that was told of some events, the earliest first. -/
def after (l : Listener σ) (s : σ) (history : List (Event × Payload)) : σ :=
  history.foldl (fun s told => (l s told.1 told.2).2) s

/-- Whatever the two listeners have been told of so far, the second answers as the first does, except that it may give what the
first leaves out, as the payload carries it. -/
def Fills (l : Listener σ) (s : σ) (l' : Listener τ) (t : τ) : Prop :=
  ∀ history event payload, (l (l.after s history) event payload).1.Filled payload (l' (l'.after t history) event payload).1

variable {l : Listener σ} {l' : Listener τ} {s : σ} {t : τ}

theorem Fills.now (h : Fills l s l' t) (event : Event) (payload : Payload) :
    (l s event payload).1.Filled payload (l' t event payload).1 :=
  h [] event payload

theorem Fills.next (h : Fills l s l' t) (event : Event) (payload : Payload) :
    Fills l (l s event payload).2 l' (l' t event payload).2 :=
  fun history => h ((event, payload) :: history)

/-- The listener that only answers with what it is told fills the one that changes nothing. -/
theorem fills_silent (h : ∀ t event payload, Outcome.unchanged.Filled payload (l' t event payload).1) (t : τ) :
    Fills Listener.silent () l' t :=
  fun _ event payload => h _ event payload

/-- The listener that gives every field, as it is where the first listener leaves it out. -/
def filling (l : Listener σ) : Listener σ :=
  fun s event payload => ((l s event payload).1.fill payload, (l s event payload).2)

theorem after_filling (l : Listener σ) (s : σ) (history : List (Event × Payload)) :
    l.filling.after s history = l.after s history := rfl

theorem fills_filling (l : Listener σ) (s : σ) : Fills l s l.filling s := by
  intro history event payload
  rw [after_filling]
  exact Outcome.filled_fill _ _

end Listener

namespace Renderer

open Rendering

variable {σ τ : Type}

/-- The renderer with another listener. -/
def withListener (r : Renderer σ) (listener : Listener τ) : Renderer τ :=
  { resolve := r.resolve, hasTemplate := r.hasTemplate, execute := r.execute, listener, settings := r.settings }

/-- Two states are the same, but that the listeners may be different and one fills the other. -/
structure Filling (r : Renderer σ) (l' : Listener τ) (a : Run σ) (b : Run τ) : Prop where
  ctx : a.ctx = b.ctx
  recorded : a.recorded = b.recorded
  listener : Listener.Fills r.listener a.listener l' b.listener

variable {r : Renderer σ} {l' : Listener τ} {a : Run σ} {b : Run τ}

/-- An event that both listeners are told of leads to the same context. -/
theorem Filling.fire (h : Filling r l' a b) (event : Event) {p : Payload} (hp : p.Shows a.ctx) :
    ∃ o o' a' b', exec (r.fire event p) a = (.ok o, a') ∧ exec ((r.withListener l').fire event p) b = (.ok o', b') ∧
      o.Filled p o' ∧ a'.ctx = a.ctx.apply o ∧ Filling r l' a' b' := by
  have hfilled := h.listener.now event p
  refine ⟨_, _, _, _, exec_fire r event p a, exec_fire (r.withListener l') event p b, hfilled, rfl, ?_, ?_, ?_⟩
  · rw [← h.ctx]
    exact (Context.apply_filled hp hfilled).symm
  · rw [h.recorded]
  · exact h.listener.next event p

/-- A row goes on as it is where it is given back as it was told. -/
theorem sim_fireRow_fills (event : Event) (row : Row) :
    Sim (Filling r l') (r.fireRow event row) ((r.withListener l').fireRow event row) := by
  intro a b h
  obtain ⟨o, o', a', b', ha, hb, hfilled, -, h'⟩ := h.fire event (a.ctx.shows_viewPayload (some (.object row)))
  have hrow : o'.row?.getD row = o.row?.getD row := by
    unfold Outcome.row?
    rcases hfilled.queryResults with heq | ⟨hnone, heq⟩
    · rw [heq]
    · rw [hnone, heq]
      rfl
  unfold fireRow
  rw [exec_bind_ok (exec_context a), exec_bind_ok ha, exec_bind_ok (exec_context b), ← h.ctx, exec_bind_ok hb, hrow]
  exact ⟨rfl, h'⟩

theorem sim_change_fills (f : Context → Context) : Sim (Filling r l') (change f) (change f) := by
  intro a b h
  exact ⟨rfl, congrArg f h.ctx, h.recorded, h.listener⟩

/-- What is done for a view goes the same way with both listeners. -/
theorem coupling_fills (r : Renderer σ) (l' : Listener τ) : Coupling r (r.withListener l') (Filling r l') where
  resolve := rfl
  hasTemplate := rfl
  alike h := by
    rw [h.ctx]
    exact ⟨rfl, rfl, rfl, rfl, rfl, rfl⟩
  change f _ := sim_change_fills f
  run path scene := by
    intro a b h
    rw [exec_run, exec_run]
    exact ⟨rfl, h.ctx, congrArg _ h.recorded, h.listener⟩
  fireRow event row _ := sim_fireRow_fills event row

/-- A view is prepared with the same rows where the list of them is given back as it was told. -/
theorem sim_prepare_fills (v : View) (t : Tag) : Sim (Filling r l') (r.prepare v t) ((r.withListener l').prepare v t) := by
  unfold prepare
  refine Sim.context Filling.ctx fun ctx => ?_
  split
  · exact .fail _
  · refine (sim_change_fills _).bind fun _ => ?_
    intro a b h
    obtain ⟨o, o', a', b', ha, hb, hfilled, hctx, h'⟩ :=
      h.fire .beforeRenderView (a.ctx.shows_viewPayload (some (.list (a.ctx.rows.map .object))))
    rw [exec_bind_ok (exec_context a), exec_bind_ok ha, exec_bind_ok (exec_context b), ← h.ctx, exec_bind_ok hb]
    rcases hfilled.queryResults with heq | ⟨hnone, heq⟩
    · rw [heq]
      split
      · exact sim_change_fills _ a' b' h'
      · exact ⟨rfl, h'⟩
    · have hitems : o'.queryResults.bind Data.list? = some (a.ctx.rows.map .object) := by
        rw [heq]
        rfl
      have hrows : rowsAmong (a.ctx.rows.map .object) = b'.ctx.rows := by
        rw [rowsAmong_map, ← h'.ctx, hctx, Context.rows_apply]
      have hsame : { b'.ctx with rows := rowsAmong (a.ctx.rows.map .object) } = b'.ctx := by rw [hrows]
      rw [hnone, hitems]
      exact ⟨rfl, h'.ctx.trans hsame.symm, h'.recorded, h'.listener⟩

/-- A tag is rendered the same way with both listeners. -/
theorem sim_renderTag_fills (t : Tag) : Sim (Filling r l') (r.renderTag t) ((r.withListener l').renderTag t) := by
  unfold renderTag
  refine ((coupling_fills r l').output sim_prepare_fills t).bind fun output => (sim_change_fills _).bind fun _ => ?_
  intro a b h
  obtain ⟨o, o', a', b', ha, hb, -, -, h'⟩ := h.fire .afterRenderView (a.ctx.shows_viewPayload none)
  rw [exec_bind_ok (exec_context a), exec_bind_ok ha, exec_bind_ok (exec_context b), ← h.ctx, exec_bind_ok hb]
  exact sim_change_fills _ a' b' h'

/-- An event that concerns the page goes the same way with both listeners. -/
theorem sim_firePage_fills (event : Event) : Sim (Filling r l') (r.firePage event) ((r.withListener l').firePage event) := by
  intro a b h
  obtain ⟨o, o', a', b', ha, hb, -, -, h'⟩ := h.fire event a.ctx.shows_pagePayload
  unfold firePage
  rw [exec_bind_ok (exec_context a), exec_bind_ok ha, exec_bind_ok (exec_context b), ← h.ctx, exec_bind_ok hb]
  exact ⟨rfl, h'⟩

/-- A pass goes the same way with both listeners, cycle by cycle. -/
theorem sim_pass_fills (excluded : List String) (allowed : Nat) :
    Sim (Filling r l') (r.pass excluded allowed) ((r.withListener l').pass excluded allowed) := by
  have tags (tags : List Tag) : Sim (Filling r l') (r.renderTags tags) ((r.withListener l').renderTags tags) :=
    Coupling.renderTags (fun h => congrArg Context.renderedPage h.ctx) sim_renderTag_fills tags
  induction allowed with
  | zero =>
    rw [pass.eq_def, pass.eq_def]
    refine Sim.context Filling.ctx fun ctx => ?_
    split
    · exact .ret _
    · exact (tags _).bind fun _ => (sim_change_fills _).bind fun _ => .fail _
  | succ allowed ih =>
    rw [pass.eq_def, pass.eq_def]
    refine Sim.context Filling.ctx fun ctx => ?_
    split
    · exact .ret _
    · exact (tags _).bind fun _ => (sim_change_fills _).bind fun _ => ih

/-- A document is rendered the same way with both listeners. -/
theorem sim_renderFrom_fills (root : View) : Sim (Filling r l') (r.renderFrom root) ((r.withListener l').renderFrom root) := by
  have hopen : Sim (Filling r l') (r.openPage root) ((r.withListener l').openPage root) :=
    (coupling_fills r l').openPage Filling.ctx (sim_firePage_fills _) (fun _ => sim_change_fills _) root
  refine hopen.bind fun _ => Sim.context Filling.ctx fun ctx => (sim_pass_fills _ _).bind fun _ => ?_
  refine (sim_firePage_fills _).bind fun _ => Sim.context Filling.ctx fun ctx => (sim_pass_fills _ _).bind fun _ => ?_
  exact (sim_firePage_fills _).bind fun _ => Sim.context Filling.ctx fun ctx => .ret _

/-! ## Documents -/

/-- Two renderings that cannot be told apart: they end with the same result and the same context, and on the way to it the
listeners were told of the same events with the same payloads, and the same templates were shown the same scenes. -/
structure Indistinct (x : Except RenderError String × Run σ) (y : Except RenderError String × Run τ) : Prop where
  result : y.1 = x.1
  ctx : y.2.ctx = x.2.ctx
  events : y.2.events = x.2.events
  recorded : y.2.recorded = x.2.recorded

/-- A listener that fills another gives the same rendering, and still fills it at the end, for the next document. -/
theorem indistinct_of_fills (root : View) (runtime : Runtime) {s : σ} {t : τ} (h : Listener.Fills r.listener s l' t) :
    Indistinct (r.render root runtime s) ((r.withListener l').render root runtime t) ∧
      Listener.Fills r.listener (r.render root runtime s).2.listener l'
        ((r.withListener l').render root runtime t).2.listener := by
  have hinit : Filling r l' (r.initial runtime s) ((r.withListener l').initial runtime t) := ⟨rfl, rfl, h⟩
  obtain ⟨hresult, hctx, hrecorded, hfills⟩ := sim_renderFrom_fills root _ _ hinit
  exact ⟨⟨hresult.symm, hctx.symm, congrArg (List.filterMap Moment.event? ∘ List.reverse) hrecorded.symm, hrecorded.symm⟩,
    hfills⟩

/-- What an outcome leaves out stays as it is: a listener that answers like another, but for fields that it gives as it was told
them where the other leaves them out, gives the same rendering from beginning to end, one document after the other. In particular
nothing tells a listener that only gives back what it is told from one that never answers. -/
theorem render_filled (r : Renderer σ) (root : View) (runtime : Runtime) (s : σ) :
    (∀ {τ : Type} (l' : Listener τ) (t : τ), Listener.Fills r.listener s l' t →
      let ended := r.render root runtime s
      let ended' := (r.withListener l').render root runtime t
      Indistinct ended ended' ∧ Listener.Fills r.listener ended.2.listener l' ended'.2.listener) ∧
    (∀ {τ : Type} (echo : Listener τ) (t : τ),
      (∀ t event payload, Outcome.unchanged.Filled payload (echo t event payload).1) →
      Indistinct ((r.withListener Listener.silent).render root runtime ()) ((r.withListener echo).render root runtime t)) := by
  refine ⟨fun l' t h => indistinct_of_fills root runtime h, fun echo t h => ?_⟩
  have hsilent : Listener.Fills (r.withListener Listener.silent).listener () echo t := Listener.fills_silent h t
  exact (indistinct_of_fills root runtime hsilent).1

/-- A renderer whose theme asks for a template of one file, which shows the mark of each row. The listener numbers the rows. -/
def numbering : Renderer Nat where
  resolve _ := some { View.conventional .template "list" with parameters := [("model_name", .text Binding.primaryModel)] }
  hasTemplate path := path = "theme/default.tera" || path = "template/list/body.tera"
  execute path scene := .ok (if path = "theme/default.tera" then "[<include list />]"
    else ((Keyed.get? scene.row "mark").bind Data.text?).getD "")
  listener n event _ :=
    if event = .beforeRenderViewItem then
      ({ queryResults := some (.object [("mark", .text (Nat.repr (n + 1)))]) }, n + 1)
    else (.unchanged, n)

/-- `render_filled` of `numbering`, with the listener that gives every field, and with the one that only gives back what it is
told. -/
theorem render_filled_numbering :
    let root := View.conventional .theme "default"
    let runtime : Runtime := { primary := { data := .list [.int 1, .int 2] } }
    (numbering.render root runtime 0).1 = .ok "[12]" ∧
      Listener.Fills numbering.listener 0 numbering.listener.filling 0 ∧
      ((numbering.withListener numbering.listener.filling).render root runtime 0).1 = .ok "[12]" ∧
      Indistinct ((numbering.withListener Listener.silent).render root runtime ())
        ((numbering.withListener Listener.silent.filling).render root runtime ()) := by
  intro root runtime
  have hpage : (numbering.render root runtime 0).1 = .ok "[12]" := eq_ok_of_toOption (by decide +kernel)
  have hfills := Listener.fills_filling numbering.listener 0
  obtain ⟨hsame, hecho⟩ := render_filled numbering root runtime 0
  obtain ⟨hfilled, -⟩ := hsame _ _ hfills
  have hgives : ∀ u event payload, Outcome.unchanged.Filled payload (Listener.silent.filling u event payload).1 :=
    fun _ _ payload => Outcome.unchanged.filled_fill payload
  exact ⟨hpage, hfills, hfilled.result.trans hpage, hecho _ _ hgives⟩

end Renderer

end Folio
