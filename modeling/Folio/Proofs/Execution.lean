import Folio.Render.Document

/-!
# Running a rendering step by step

`exec` runs a step of a rendering on a state, and `exec_bind` takes a composed step apart. `Local` describes the steps that
are put together from events, executed templates and changes of the current view: `Local.level` says that they leave the
counter, the deferred words and the seeds alone, `Local.grown` that the record of what happened only grows,
`Local.raises` that only a template can make them fail with the error of the limit, and `Local.reports` that they end with
the error of a template that fails. Everything a renderer does to render one tag is such a step (`local_renderTag`), and so are
the tags of a cycle (`local_renderTags`). A row of a template goes through stages, one event and one region after the other
(`renderRow_eq`), and the word of its turn is that for its index (`renderRows_cons`).
-/

namespace Folio

/-- The parts of a context that no view may touch are the same. -/
structure Context.Level (a b : Context) : Prop where
  cycles : a.cycles = b.cycles
  excluded : a.excluded = b.excluded
  seeds : a.seeds = b.seeds

theorem Context.Level.refl (a : Context) : a.Level a := ⟨rfl, rfl, rfl⟩

theorem Context.Level.trans {a b c : Context} (h : a.Level b) (h' : b.Level c) : a.Level c :=
  ⟨h.cycles.trans h'.cycles, h.excluded.trans h'.excluded, h.seeds.trans h'.seeds⟩

/-- An outcome cannot touch the counter, the deferred words or the seeds. -/
theorem Context.level_apply (ctx : Context) (o : Outcome) : (ctx.apply o).Level ctx := by
  rw [Context.apply_eq]
  exact ⟨rfl, rfl, rfl⟩

/-- The record of the second state is the record of the first with more on top, and all the events in that are of some kind. -/
def Run.Grown {σ : Type} (fires : Event → Prop) (a b : Run σ) : Prop :=
  ∃ added, b.recorded = added ++ a.recorded ∧ ∀ event payload, Moment.fired event payload ∈ added → fires event

namespace Run.Grown

variable {σ : Type} {fires : Event → Prop} {a b c : Run σ}

theorem refl (a : Run σ) : a.Grown fires a := ⟨[], rfl, nofun⟩

theorem trans (h : a.Grown fires b) (h' : b.Grown fires c) : a.Grown fires c := by
  obtain ⟨added, hb, hfires⟩ := h
  obtain ⟨added', hc, hfires'⟩ := h'
  refine ⟨added' ++ added, by rw [hc, hb, List.append_assoc], ?_⟩
  intro event payload hmem
  rcases List.mem_append.mp hmem with hmem | hmem
  · exact hfires' event payload hmem
  · exact hfires event payload hmem

/-- An event that was fired stays fired. -/
theorem mem_events (h : a.Grown fires b) {x : Event × Payload} (hx : x ∈ a.events) : x ∈ b.events := by
  obtain ⟨added, hb, -⟩ := h
  simp only [Run.events, hb, List.reverse_append, List.filterMap_append, List.mem_append]
  exact Or.inl hx

/-- An event that has been fired was fired before, or is of the kind that was added. -/
theorem mem_events_or (h : a.Grown fires b) {x : Event × Payload} (hx : x ∈ b.events) : x ∈ a.events ∨ fires x.1 := by
  obtain ⟨added, hb, hfires⟩ := h
  simp only [Run.events, hb, List.reverse_append, List.filterMap_append, List.mem_append, List.mem_filterMap,
    List.mem_reverse] at hx
  rcases hx with hx | ⟨m, hm, hmx⟩
  · refine Or.inl ?_
    simpa [Run.events] using hx
  · cases m with
    | executed path scene => cases hmx
    | fired event payload =>
      rw [Moment.event?, Option.some.injEq] at hmx
      rw [← hmx]
      exact Or.inr (hfires event payload hm)

end Run.Grown

/-- The last that happened is that a template was executed, and that it failed with this error. -/
def Run.Reports {σ : Type} (a : Run σ) (r : Renderer σ) (e : RenderError) : Prop :=
  ∃ path scene rest, a.recorded = .executed path scene :: rest ∧ r.execute path scene = .error e

/-- No template has just failed. -/
def Run.Unreported {σ : Type} (a : Run σ) (r : Renderer σ) : Prop :=
  ∀ e, ¬ a.Reports r e

/-- The events that are fired while a tag is rendered: all but those that concern the whole page. -/
def Event.OfTag (event : Event) : Prop :=
  event ≠ .beforeParse ∧ event ≠ .beforeParseHead ∧ event ≠ .afterRender

instance : DecidablePred Event.OfTag := fun _ => inferInstanceAs (Decidable (_ ∧ _))

namespace Rendering

variable {σ α β : Type}

/-- Run a step on a state: its value or what went wrong, and the state in which it ends. -/
def exec (x : Rendering σ α) (a : Run σ) : Except RenderError α × Run σ :=
  ExceptT.run x a

@[simp] theorem exec_pure (v : α) (a : Run σ) : exec (pure v) a = (.ok v, a) := rfl

@[simp] theorem exec_throw (e : RenderError) (a : Run σ) : exec (throw e : Rendering σ α) a = (.error e, a) := rfl

/-- A composed step runs its first part, and goes on from there unless that failed. -/
theorem exec_bind (x : Rendering σ α) (f : α → Rendering σ β) (a : Run σ) :
    exec (x >>= f) a =
      match exec x a with
      | (.ok v, b) => exec (f v) b
      | (.error e, b) => (.error e, b) := by
  simp only [exec, ExceptT.run, Bind.bind, ExceptT.bind, ExceptT.mk, StateT.bind, ExceptT.bindCont]
  rcases x a with ⟨e | v, b⟩ <;> rfl

/-- A composed step goes on where its first part ended well. -/
theorem exec_bind_ok {x : Rendering σ α} {f : α → Rendering σ β} {a b : Run σ} {v : α} (h : exec x a = (.ok v, b)) :
    exec (x >>= f) a = exec (f v) b := by
  rw [exec_bind, h]

/-- A composed step fails where its first part failed. -/
theorem exec_bind_error {x : Rendering σ α} {f : α → Rendering σ β} {a b : Run σ} {e : RenderError}
    (h : exec x a = (.error e, b)) : exec (x >>= f) a = (.error e, b) := by
  rw [exec_bind, h]

/-- A composed step that ends well goes through the end of its first part. -/
theorem ok_of_exec_bind {x : Rendering σ α} {f : α → Rendering σ β} {a c : Run σ} {w : β}
    (h : exec (x >>= f) a = (.ok w, c)) : ∃ v b, exec x a = (.ok v, b) ∧ exec (f v) b = (.ok w, c) := by
  rcases hx : exec x a with ⟨e | v, b⟩
  · rw [exec_bind_error hx] at h
    cases h
  · rw [exec_bind_ok hx] at h
    exact ⟨v, b, rfl, h⟩

@[simp] theorem exec_context (a : Run σ) : exec Renderer.context a = (.ok a.ctx, a) := rfl

@[simp] theorem exec_change (f : Context → Context) (a : Run σ) :
    exec (Renderer.change f) a = (.ok (), { a with ctx := f a.ctx }) := rfl

theorem exec_fire (r : Renderer σ) (event : Event) (payload : Payload) (a : Run σ) :
    exec (r.fire event payload) a =
      (.ok (r.listener a.listener event payload).1,
        { ctx := a.ctx.apply (r.listener a.listener event payload).1, listener := (r.listener a.listener event payload).2,
          recorded := .fired event payload :: a.recorded }) := rfl

theorem exec_run (r : Renderer σ) (path : String) (scene : Scene) (a : Run σ) :
    exec (r.run path scene) a = (r.execute path scene, { a with recorded := .executed path scene :: a.recorded }) := by
  unfold Renderer.run
  rw [exec_bind]
  cases r.execute path scene <;> rfl

/-! ## Steps that concern the current view -/

/-- A step put together from events of some kind, executed templates, changes that no view is denied, and failures other than
the limit. -/
inductive Local (r : Renderer σ) (fires : Event → Prop) : {α : Type} → Rendering σ α → Prop where
  | ret {α : Type} (v : α) : Local r fires (pure v : Rendering σ α)
  | fail {α : Type} (e : RenderError) : (∀ limit, e ≠ .loopLimit limit) → Local r fires (throw e : Rendering σ α)
  | context : Local r fires Renderer.context
  | change (f : Context → Context) : (∀ ctx, (f ctx).Level ctx) → Local r fires (Renderer.change f)
  | fire (event : Event) (payload : Payload) : fires event → Local r fires (r.fire event payload)
  | run (path : String) (scene : Scene) : Local r fires (r.run path scene)
  | bind {α β : Type} {x : Rendering σ α} {f : α → Rendering σ β} :
      Local r fires x → (∀ v, Local r fires (f v)) → Local r fires (x >>= f)

namespace Local

variable {r : Renderer σ} {fires : Event → Prop} {x : Rendering σ α}

theorem level (h : Local r fires x) (a : Run σ) : (exec x a).2.ctx.Level a.ctx := by
  induction h generalizing a with
  | ret v => exact Context.Level.refl _
  | fail e _ => exact Context.Level.refl _
  | context => exact Context.Level.refl _
  | change f hf => exact hf a.ctx
  | fire event payload _ => exact Context.level_apply _ _
  | run path scene =>
    rw [exec_run]
    exact Context.Level.refl _
  | bind _ _ ihx ihf =>
    have hx := ihx a
    rw [exec_bind]
    split
    · rename_i v b hb
      rw [hb] at hx
      exact (ihf v b).trans hx
    · rename_i e b hb
      rw [hb] at hx
      exact hx

theorem grown (h : Local r fires x) (a : Run σ) : a.Grown fires (exec x a).2 := by
  induction h generalizing a with
  | ret v => exact Run.Grown.refl _
  | fail e _ => exact Run.Grown.refl _
  | context => exact Run.Grown.refl _
  | change f _ => exact Run.Grown.refl _
  | fire event payload hfires =>
    rw [exec_fire]
    refine ⟨[.fired event payload], rfl, ?_⟩
    intro event' payload' hmem
    rw [List.mem_singleton, Moment.fired.injEq] at hmem
    rw [hmem.1]
    exact hfires
  | run path scene =>
    rw [exec_run]
    refine ⟨[.executed path scene], rfl, ?_⟩
    intro event payload hmem
    cases List.mem_singleton.mp hmem
  | bind _ _ ihx ihf =>
    have hx := ihx a
    rw [exec_bind]
    split
    · rename_i v b hb
      rw [hb] at hx
      exact hx.trans (ihf v b)
    · rename_i e b hb
      rw [hb] at hx
      exact hx

theorem level_of_exec (h : Local r fires x) {a b : Run σ} {res : Except RenderError α} (hx : exec x a = (res, b)) :
    b.ctx.Level a.ctx := by
  have hl := h.level a
  rw [hx] at hl
  exact hl

theorem grown_of_exec (h : Local r fires x) {a b : Run σ} {res : Except RenderError α} (hx : exec x a = (res, b)) :
    a.Grown fires b := by
  have hg := h.grown a
  rw [hx] at hg
  exact hg

/-- A local step fails with the error of the limit only where a template did so that was executed last. -/
theorem raises (h : Local r fires x) {a b : Run σ} {limit : Nat} (hx : exec x a = (.error (.loopLimit limit), b)) :
    b.Reports r (.loopLimit limit) := by
  induction h generalizing a b with
  | ret v => cases hx
  | fail e he =>
    rw [exec_throw, Prod.mk.injEq, Except.error.injEq] at hx
    exact absurd hx.1 (he limit)
  | context => cases hx
  | change f _ => cases hx
  | fire event payload _ =>
    rw [exec_fire] at hx
    cases hx
  | run path scene =>
    rw [exec_run, Prod.mk.injEq] at hx
    exact ⟨path, scene, a.recorded, hx.2 ▸ rfl, hx.1⟩
  | bind _ _ ihx ihf =>
    rw [exec_bind] at hx
    split at hx
    · exact ihf _ hx
    · rename_i e c hc
      rw [Prod.mk.injEq, Except.error.injEq] at hx
      rw [hx.1, hx.2] at hc
      exact ihx hc

/-- A template that fails ends a local step with its error. -/
theorem reports (h : Local r fires x) {a b : Run σ} {res : Except RenderError α} {e : RenderError} (ha : a.Unreported r)
    (hx : exec x a = (res, b)) (he : b.Reports r e) : res = .error e := by
  induction h generalizing a b e with
  | ret v =>
    cases hx
    exact absurd he (ha e)
  | fail e' _ =>
    cases hx
    exact absurd he (ha e)
  | context =>
    cases hx
    exact absurd he (ha e)
  | change f _ =>
    cases hx
    exact absurd he (ha e)
  | fire event payload _ =>
    obtain ⟨path, scene, rest, hlast, -⟩ := he
    rw [exec_fire, Prod.mk.injEq] at hx
    rw [← hx.2] at hlast
    cases hlast
  | run path scene =>
    obtain ⟨path', scene', rest, hlast, hfailed⟩ := he
    rw [exec_run, Prod.mk.injEq] at hx
    rw [← hx.2, List.cons.injEq, Moment.executed.injEq] at hlast
    rw [← hx.1, hlast.1.1, hlast.1.2, hfailed]
  | bind _ _ ihx ihf =>
    rw [exec_bind] at hx
    split at hx
    · rename_i v c hc
      refine ihf v (fun e' he' => ?_) hx he
      cases ihx ha hc he'
    · rename_i e' c hc
      rw [Prod.mk.injEq] at hx
      rw [← hx.2] at he
      rw [← hx.1, Except.error.injEq]
      exact Except.error.inj (ihx ha hc he)

/-- After a local step that ends well no template has just failed. -/
theorem unreported (h : Local r fires x) {a b : Run σ} {v : α} (ha : a.Unreported r) (hx : exec x a = (.ok v, b)) :
    b.Unreported r := by
  intro e he
  cases h.reports ha hx he

end Local

end Rendering

/-! ## The stages of a row -/

namespace Renderer

variable {σ : Type}

/-- The stages of the row at `index` of `total`: in each an event is fired for the row and a region is executed. -/
def stagesOf (total index : Nat) : List (Event × Region) :=
  (if index = 0 then [(.beforeRenderViewHead, .header)] else []) ++
    (.beforeRenderViewItem, .body) :: if index + 1 = total then [(.beforeRenderViewFooter, .footer)] else []

theorem ofTag_of_mem_stagesOf {total index : Nat} {stage : Event × Region} (h : stage ∈ stagesOf total index) :
    stage.1.OfTag := by
  have hoptional {p : Prop} [Decidable p] {region : Region} (event : Event) (hevent : event.OfTag)
      (h : stage ∈ if p then [(event, region)] else []) : stage.1.OfTag := by
    split at h
    · rw [List.mem_singleton.mp h]
      exact hevent
    · cases h
  unfold stagesOf at h
  rcases List.mem_append.mp h with h | h
  · exact hoptional .beforeRenderViewHead (by decide) h
  · rcases List.mem_cons.mp h with rfl | h
    · decide
    · exact hoptional .beforeRenderViewFooter (by decide) h

/-- One stage of a row: the answer is the row to go on with. -/
def renderStage (r : Renderer σ) (v : View) (stage : Event × Region) (row : Row) : Rendering σ Row := do
  let row ← r.fireRow stage.1 row
  r.appendRegion v stage.2 row
  return row

/-- Some stages of a row, one after the other. -/
def renderStages (r : Renderer σ) (v : View) : List (Event × Region) → Row → Rendering σ Row
  | [], row => return row
  | stage :: rest, row => do
    let row ← r.renderStage v stage row
    renderStages r v rest row

theorem renderStages_cons (r : Renderer σ) (v : View) (stage : Event × Region) (rest : List (Event × Region)) (row : Row) :
    r.renderStages v (stage :: rest) row = (do
      let row ← r.fireRow stage.1 row
      r.appendRegion v stage.2 row
      r.renderStages v rest row) := by
  simp only [renderStages, renderStage, bind_assoc, pure_bind]

/-- A row takes its place, goes through its stages, and is put among the rows. -/
theorem renderRow_eq (r : Renderer σ) (v : View) (total index : Nat) (parity : String) (row : Row) :
    r.renderRow v total index parity row = (do
      change fun ctx => { ctx with parameters := Keyed.extend ctx.parameters (placeFields parity index total) }
      let row ← r.renderStages v (stagesOf total index) (Keyed.extend row (placeFields parity index total))
      change fun ctx => { ctx with rows := ctx.rows.set index row }) := by
  unfold renderRow stagesOf
  dsimp only
  split <;> split <;>
    simp only [List.nil_append, List.singleton_append, renderStages, renderStage, bind_assoc, pure_bind]

end Renderer

/-- The word for the row at an index: the first is odd, and from there odd and even take turns. -/
def parityAt (index : Nat) : String :=
  if index % 2 = 0 then "odd" else "even"

theorem nextParity_parityAt (index : Nat) : nextParity (parityAt index) = parityAt (index + 1) := by
  unfold nextParity parityAt
  by_cases h : index % 2 = 0
  · rw [if_pos h, if_pos rfl, if_neg (by omega)]
  · rw [if_neg h, if_neg (by decide), if_pos (by omega)]

/-- The place of the row at an index among `total` rows, with the word for its index. -/
def decoration (index total : Nat) : Keyed Data :=
  placeFields (parityAt index) index total

/-- The word that is carried from row to row is always that for the index. -/
theorem Renderer.renderRows_cons {σ : Type} (r : Renderer σ) (v : View) (total index : Nat) (row : Row) (rest : List Row) :
    r.renderRows v total index (parityAt index) (row :: rest) = (do
      r.renderRow v total index (parityAt index) row
      r.renderRows v total (index + 1) (parityAt (index + 1)) rest) := by
  rw [renderRows, nextParity_parityAt]

/-! ## What a renderer does for one tag -/

namespace Renderer

/-- A result can be compared with a value by what it is as an option. -/
theorem eq_ok_of_toOption {α β : Type} {x : Except α β} {v : β} (h : x.toOption = some v) : x = .ok v := by
  cases x with
  | error e => cases h
  | ok w => rw [Option.some.inj h]

/-- What went wrong, if anything did. -/
def failure? {ε α : Type} : Except ε α → Option ε
  | .error e => some e
  | .ok _ => none

/-- A result can be compared with an error by what went wrong. -/
theorem eq_error_of_failure? {ε α : Type} {x : Except ε α} {e : ε} (h : failure? x = some e) : x = .error e := by
  cases x with
  | error e' => rw [Option.some.inj h]
  | ok w => cases h

open Rendering

variable {σ : Type} (r : Renderer σ) {fires : Event → Prop}

theorem local_fireRow (event : Event) (row : Row) (h : fires event) : Local r fires (r.fireRow event row) :=
  .bind .context fun _ => .bind (.fire _ _ h) fun _ => .ret _

theorem local_appendRegion (v : View) (region : Region) (row : Row) : Local r fires (r.appendRegion v region row) := by
  unfold appendRegion
  dsimp only
  split
  · exact .bind .context fun _ => .bind (.run _ _) fun _ => .change _ fun _ => ⟨rfl, rfl, rfl⟩
  · exact .ret _

theorem local_renderPage (v : View) (row : Row) : Local r fires (r.renderPage v row) := by
  unfold renderPage
  split
  · exact .bind .context fun _ => .run _ _
  · exact .fail _ nofun

theorem local_renderStages (v : View) {stages : List (Event × Region)} (h : ∀ stage ∈ stages, fires stage.1) (row : Row) :
    Local r fires (r.renderStages v stages row) := by
  induction stages generalizing row with
  | nil => exact .ret _
  | cons stage rest ih =>
    obtain ⟨hstage, hrest⟩ := List.forall_mem_cons.mp h
    have hlocal : Local r fires (r.renderStage v stage row) :=
      .bind (local_fireRow r _ _ hstage) fun _ => .bind (local_appendRegion r _ _ _) fun _ => .ret _
    exact .bind hlocal (ih hrest)

theorem local_renderRow (v : View) (total index : Nat) (parity : String) (row : Row) :
    Local r Event.OfTag (r.renderRow v total index parity row) := by
  rw [renderRow_eq]
  refine .bind (.change _ fun _ => ⟨rfl, rfl, rfl⟩) fun _ => ?_
  exact .bind (local_renderStages r v (fun _ => ofTag_of_mem_stagesOf) _) fun _ => .change _ fun _ => ⟨rfl, rfl, rfl⟩

theorem local_renderRows (v : View) (total index : Nat) (parity : String) (rows : List Row) :
    Local r Event.OfTag (r.renderRows v total index parity rows) := by
  induction rows generalizing index parity with
  | nil => exact .ret _
  | cons row rest ih => exact .bind (local_renderRow r _ _ _ _ _) fun _ => ih _ _

/-- A view without any of its files fails before anything else; otherwise the step goes on. -/
theorem local_unless_missing {α : Type} (v : View) (missing : Bool) {x : Rendering σ α} (hx : Local r fires x) :
    Local r fires (if missing then throw (.notFound v.includePath) >>= fun _ : Unit => x else x) := by
  split
  · exact .bind (.fail _ nofun) fun _ => hx
  · exact hx

theorem local_renderTemplate (v : View) : Local r Event.OfTag (r.renderTemplate v) := by
  unfold renderTemplate
  refine local_unless_missing r v _ ?_
  dsimp only
  split
  · exact .bind .context fun _ => .bind (.run _ _) fun _ => .bind (.change _ fun _ => ⟨rfl, rfl, rfl⟩) fun _ => .ret _
  · exact .bind (.change _ fun _ => ⟨rfl, rfl, rfl⟩) fun _ => .bind .context fun _ =>
      .bind (local_renderRows r _ _ _ _ _) fun _ => .bind .context fun _ => .ret _

theorem local_runRegions (v : View) (scene : Scene) (regions : List Region) :
    Local r fires (r.runRegions v scene regions) := by
  induction regions with
  | nil => exact .ret _
  | cons region rest ih =>
    unfold runRegions
    dsimp only
    split
    · exact .bind (.run _ _) fun _ => .bind ih fun _ => .ret _
    · exact .bind (.ret _) fun _ => .bind ih fun _ => .ret _

theorem local_renderWrap (v : View) (content : String) : Local r fires (r.renderWrap v content) := by
  unfold renderWrap
  exact local_unless_missing r v _ (.bind .context fun _ => local_runRegions r _ _ _)

theorem local_renderView (v : View) : Local r Event.OfTag (r.renderView v) := by
  unfold renderView
  split
  · exact .bind .context fun _ => local_renderPage r _ _
  · exact .bind .context fun _ => local_renderPage r _ _
  · exact local_renderTemplate r v
  · exact .bind .context fun _ => local_renderWrap r _ _

theorem local_prepare (v : View) (t : Tag) : Local r Event.OfTag (r.prepare v t) := by
  unfold prepare
  refine .bind .context fun ctx => ?_
  split
  · exact .fail _ nofun
  · refine .bind (.change _ fun _ => ⟨rfl, rfl, rfl⟩) fun _ => .bind .context fun _ => .bind (.fire _ _ (by decide)) fun _ => ?_
    split
    · exact .change _ fun _ => ⟨rfl, rfl, rfl⟩
    · exact .ret _

/-- The content of a tag is what its view gives when it is prepared. -/
theorem local_content (v : View) (t : Tag) : Local r Event.OfTag (r.prepare v t >>= fun _ => r.renderView v) :=
  .bind (local_prepare r v t) fun _ => local_renderView r v

/-- A failed lookup names the reference. -/
theorem lookup_ne_loopLimit (scheme : Scheme) (name : String) (limit : Nat) :
    r.lookup scheme name ≠ .error (.loopLimit limit) := by
  unfold lookup
  dsimp only
  split <;> exact nofun

theorem resolveWrap_ne_loopLimit (seeds : Seeds) (target : String) (limit : Nat) :
    r.resolveWrap seeds target ≠ .error (.loopLimit limit) := by
  unfold resolveWrap
  split
  · exact nofun
  · exact lookup_ne_loopLimit r _ _ limit

theorem resolveSeeded_ne_loopLimit (seeds : Seeds) (t : Tag) (limit : Nat) :
    r.resolveSeeded seeds t ≠ .error (.loopLimit limit) := by
  unfold resolveSeeded
  split
  · exact nofun
  · exact lookup_ne_loopLimit r _ _ limit

theorem local_renderTarget (v : View) (t : Tag) : Local r Event.OfTag (r.renderTarget v t) := by
  unfold renderTarget
  refine .bind (local_renderView r v) fun output => ?_
  split
  · exact .ret _
  · refine .bind .context fun ctx => ?_
    have hne := resolveWrap_ne_loopLimit r ctx.seeds t.wrap
    split
    · exact local_renderWrap r _ _
    · rename_i e he
      exact .fail e fun limit h => hne limit (h ▸ he)

theorem local_output (t : Tag) : Local r Event.OfTag (r.output t) := by
  unfold output
  refine .bind .context fun ctx => ?_
  have hne := resolveSeeded_ne_loopLimit r ctx.seeds t
  split
  · rename_i e he
    exact .fail e fun limit h => hne limit (h ▸ he)
  · exact .bind (local_prepare r _ _) fun _ => local_renderTarget r _ _

theorem local_renderTag (t : Tag) : Local r Event.OfTag (r.renderTag t) :=
  .bind (local_output r t) fun _ => .bind (.change _ fun _ => ⟨rfl, rfl, rfl⟩) fun _ => .bind .context fun _ =>
    .bind (.fire _ _ (by decide)) fun _ => .change _ fun _ => ⟨rfl, rfl, rfl⟩

theorem local_renderTags (tags : List Tag) : Local r Event.OfTag (r.renderTags tags) := by
  induction tags with
  | nil => exact .ret _
  | cons t rest ih =>
    unfold renderTags
    refine .bind .context fun _ => ?_
    split
    · exact .bind (local_renderTag r t) fun _ => ih
    · exact ih

theorem local_firePage (event : Event) : Local r (· = event) (r.firePage event) :=
  .bind .context fun _ => .bind (.fire _ _ rfl) fun _ => .ret _

theorem local_openPage (root : View) : Local r (· = .beforeParse) (r.openPage root) :=
  .bind (local_firePage r _) fun _ => .bind .context fun _ => .bind (local_renderPage r _ _) fun _ =>
    .change _ fun _ => ⟨rfl, rfl, rfl⟩

end Renderer

end Folio
