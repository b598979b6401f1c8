import Folio.Proofs.Paths
import Folio.Proofs.Turns

/-!
# What a view executes

`Adds P x a` says that whatever a step records from a state is of the kind `P`, however the step ends. A composed step records
what its parts do (`Adds.bind`). So a view executes none but its own templates (`adds_renderView`). A tag is rendered in three parts
(`exec_renderTag_of_resolve`) and executes none but the templates of the view that it stands for and of the wrap that it asks for
(`adds_renderTag`), and a document none but those of its root and of its turns (`adds_renderFrom`).
-/

namespace Folio

/-- The templates that rendering a view may execute. -/
def View.templates (v : View) : List String :=
  match v.scheme with
  | .theme | .page => [v.includePath]
  | .template => Region.ofTemplate.map (Renderer.regionPath v)
  | .wrap => Region.ofWrap.map (Renderer.regionPath v)

/-- What a wrap sees around a content: nothing but the content and its own parameters. -/
def View.wrapScene (w : View) (content : String) (runtime : Runtime) : Scene where
  row := wrapRow content
  rows := [wrapRow content]
  parameters := w.parameters
  modelRegistry := .null
  runtime := runtime

/-- The record of the second state is the record of the first with more on top, all of some kind. -/
def Run.Added {σ : Type} (P : Moment → Prop) (a b : Run σ) : Prop :=
  ∃ added, b.recorded = added ++ a.recorded ∧ ∀ m ∈ added, P m

namespace Run.Added

variable {σ : Type} {P Q : Moment → Prop} {a b c : Run σ}

/-- States with the same record have nothing added. -/
theorem none (h : b.recorded = a.recorded) : a.Added P b :=
  ⟨[], h, nofun⟩

theorem mono (h : a.Added P b) (hPQ : ∀ m, P m → Q m) : a.Added Q b := by
  obtain ⟨added, hrecorded, hall⟩ := h
  exact ⟨added, hrecorded, fun m hm => hPQ m (hall m hm)⟩

theorem trans (h : a.Added P b) (h' : b.Added P c) : a.Added P c := by
  obtain ⟨added, hb, hadded⟩ := h
  obtain ⟨added', hc, hadded'⟩ := h'
  refine ⟨added' ++ added, by rw [hc, hb, List.append_assoc], fun m hm => ?_⟩
  exact (List.mem_append.mp hm).elim (hadded' m) (hadded m)

end Run.Added

namespace Rendering

variable {σ α β : Type}

/-- Whatever a step records from a state is of some kind, however it ends. -/
def Adds (P : Moment → Prop) (x : Rendering σ α) (a : Run σ) : Prop :=
  a.Added P (exec x a).2

namespace Adds

variable {P : Moment → Prop} {x : Rendering σ α} {a : Run σ}

/-- A step that leaves the record as it is records nothing. -/
theorem none (h : (exec x a).2.recorded = a.recorded) : Adds P x a :=
  Run.Added.none h

theorem ret (v : α) (a : Run σ) : Adds P (pure v) a := none rfl

theorem fail (e : RenderError) (a : Run σ) : Adds P (throw e : Rendering σ α) a := none rfl

theorem change (f : Context → Context) (a : Run σ) : Adds P (Renderer.change f) a := none rfl

/-- A composed step records what its parts do. -/
theorem bind {f : α → Rendering σ β} (hx : Adds P x a) (hf : ∀ v b, exec x a = (.ok v, b) → Adds P (f v) b) :
    Adds P (x >>= f) a := by
  unfold Adds at hx ⊢
  rcases hxa : exec x a with ⟨e | v, b⟩
  · rw [hxa] at hx
    rw [exec_bind_error hxa]
    exact hx
  · rw [hxa] at hx
    rw [exec_bind_ok hxa]
    exact hx.trans (hf v b hxa)

theorem context {f : Context → Rendering σ β} (hf : Adds P (f a.ctx) a) : Adds P (Renderer.context >>= f) a :=
  (none rfl).bind fun v b hb => by
    rw [exec_context, Prod.mk.injEq, Except.ok.injEq] at hb
    rw [← hb.1, ← hb.2]
    exact hf

theorem fire (r : Renderer σ) {event : Event} {payload : Payload} (h : P (.fired event payload)) (a : Run σ) :
    Adds P (r.fire event payload) a :=
  ⟨[.fired event payload], rfl, fun _ hm => List.mem_singleton.mp hm ▸ h⟩

theorem run (r : Renderer σ) {path : String} {scene : Scene} (h : P (.executed path scene)) (a : Run σ) :
    Adds P (r.run path scene) a := by
  refine ⟨[.executed path scene], ?_, fun _ hm => List.mem_singleton.mp hm ▸ h⟩
  rw [exec_run]
  rfl

end Adds

end Rendering

namespace Renderer

open Rendering

variable {σ : Type} (r : Renderer σ) {P : Moment → Prop} (hfired : ∀ event payload, P (.fired event payload)) (v : View)

theorem adds_appendRegion {region : Region} {row : Row} {a : Run σ}
    (h : P (.executed (regionPath v region) (a.ctx.scene row))) : Adds P (r.appendRegion v region row) a := by
  unfold appendRegion
  dsimp only
  split
  · exact .context ((Adds.run r h a).bind fun _ b _ => .change _ b)
  · exact .ret _ a

theorem adds_renderPage {row : Row} {a : Run σ} (h : P (.executed v.includePath (a.ctx.scene row))) :
    Adds P (r.renderPage v row) a := by
  unfold renderPage
  split
  · exact .context (Adds.run r h a)
  · exact .fail _ a

theorem adds_runRegions {regions : List Region} {scene : Scene}
    (h : ∀ region ∈ regions, P (.executed (regionPath v region) scene)) (a : Run σ) :
    Adds P (r.runRegions v scene regions) a := by
  induction regions generalizing a with
  | nil => exact .ret _ a
  | cons region rest ih =>
    have hrest (b : Run σ) := ih (fun region hregion => h region (List.mem_cons_of_mem _ hregion)) b
    unfold runRegions
    dsimp only
    split
    · exact (Adds.run r (h region List.mem_cons_self) a).bind fun _ b _ => (hrest b).bind fun _ c _ => .ret _ c
    · exact (Adds.ret _ a).bind fun _ b _ => (hrest b).bind fun _ c _ => .ret _ c

/-- A view without any of its files records nothing. -/
theorem adds_unless_missing {α : Type} {missing : Bool} {x : Rendering σ α} {a : Run σ} (hx : Adds P x a) :
    Adds P (if missing then throw (.notFound v.includePath) >>= fun _ : Unit => x else x) a := by
  split
  · exact (Adds.fail _ a).bind fun _ b hb => by cases hb
  · exact hx

theorem adds_renderWrap {content : String} {a : Run σ}
    (h : ∀ region ∈ Region.ofWrap, P (.executed (regionPath v region) (v.wrapScene content a.ctx.runtime))) :
    Adds P (r.renderWrap v content) a := by
  unfold renderWrap
  exact adds_unless_missing v (.context (adds_runRegions r v h a))

section

include hfired

theorem adds_fireRow (event : Event) (row : Row) (a : Run σ) : Adds P (r.fireRow event row) a :=
  .context ((Adds.fire r (hfired _ _) a).bind fun _ b _ => .ret _ b)

theorem adds_renderStages (h : ∀ region ∈ Region.ofTemplate, ∀ scene, P (.executed (regionPath v region) scene))
    (stages : List (Event × Region)) (row : Row) (a : Run σ) : Adds P (r.renderStages v stages row) a := by
  induction stages generalizing row a with
  | nil => exact .ret _ a
  | cons stage rest ih =>
    have hstage : Adds P (r.renderStage v stage row) a :=
      (adds_fireRow r hfired stage.1 row a).bind fun _ b _ =>
        (adds_appendRegion r v (h stage.2 stage.2.mem_ofTemplate _)).bind fun _ c _ => .ret _ c
    exact hstage.bind fun row b _ => ih row b

theorem adds_renderRow (h : ∀ region ∈ Region.ofTemplate, ∀ scene, P (.executed (regionPath v region) scene))
    (total index : Nat) (parity : String) (row : Row) (a : Run σ) : Adds P (r.renderRow v total index parity row) a := by
  rw [renderRow_eq]
  refine (Adds.change _ a).bind fun _ b _ => ?_
  exact (adds_renderStages r hfired v h _ _ b).bind fun _ c _ => .change _ c

theorem adds_renderRows (h : ∀ region ∈ Region.ofTemplate, ∀ scene, P (.executed (regionPath v region) scene))
    (total index : Nat) (parity : String) (rows : List Row) (a : Run σ) : Adds P (r.renderRows v total index parity rows) a := by
  induction rows generalizing index parity a with
  | nil => exact .ret _ a
  | cons row rest ih => exact (adds_renderRow r hfired v h total index parity row a).bind fun _ b _ => ih (index + 1) (nextParity parity) b

theorem adds_renderTemplate (h : ∀ region ∈ Region.ofTemplate, ∀ scene, P (.executed (regionPath v region) scene))
    (a : Run σ) : Adds P (r.renderTemplate v) a := by
  unfold renderTemplate
  refine adds_unless_missing v ?_
  dsimp only
  split
  · exact .context ((Adds.run r (h _ Region.custom.mem_ofTemplate _) a).bind fun _ b _ =>
      (Adds.change _ b).bind fun _ c _ => .ret _ c)
  · exact (Adds.change _ a).bind fun _ b _ => .context ((adds_renderRows r hfired v h _ 0 _ _ b).bind fun _ c _ =>
      .context (.ret _ c))

/-- A view executes none but its own templates. -/
theorem adds_renderView (h : ∀ path ∈ v.templates, ∀ scene, P (.executed path scene)) (a : Run σ) :
    Adds P (r.renderView v) a := by
  unfold View.templates at h
  unfold renderView
  cases hscheme : v.scheme with
  | theme =>
    rw [hscheme] at h
    exact .context (adds_renderPage r v (h _ List.mem_cons_self _))
  | page =>
    rw [hscheme] at h
    exact .context (adds_renderPage r v (h _ List.mem_cons_self _))
  | template =>
    rw [hscheme] at h
    exact adds_renderTemplate r hfired v (fun region hregion => h _ (List.mem_map_of_mem hregion)) a
  | wrap =>
    rw [hscheme] at h
    exact .context (adds_renderWrap r v fun region hregion => h _ (List.mem_map_of_mem hregion) _)

theorem adds_prepare (t : Tag) (a : Run σ) : Adds P (r.prepare v t) a := by
  unfold prepare
  refine .context ?_
  split
  · exact .fail _ a
  · refine (Adds.change _ a).bind fun _ b _ => .context ((Adds.fire r (hfired _ _) b).bind fun _ c _ => ?_)
    split
    · exact .change _ c
    · exact .ret _ c

end

/-! ## Tags -/

/-- The output of a tag from the content that its view gives: with the wrap around it that the tag asks for. -/
def surround (t : Tag) (content : String) : Rendering σ String := do
  if t.wrap.isEmpty then return content
  else match r.resolveWrap (← context).seeds t.wrap with
    | .ok wrap => r.renderWrap wrap content
    | .error e => throw e

/-- The output of a tag is put in the place of its copies. -/
def deliver (t : Tag) (output : String) : Rendering σ Unit := do
  change fun ctx => { ctx with renderedView := output }
  let _ ← r.fire .afterRenderView ((← context).viewPayload none)
  change fun ctx => { ctx with renderedPage := Text.replaceAll ctx.renderedPage t.raw ctx.renderedView }

/-- A tag is rendered in three parts: its view gives a content, the content is surrounded, and the output is delivered. -/
theorem exec_renderTag_of_resolve {v : View} {t : Tag} {a : Run σ} (hv : r.resolveSeeded a.ctx.seeds t = .ok v) :
    exec (r.renderTag t) a =
      exec ((r.prepare v t >>= fun _ => r.renderView v) >>= fun content => r.surround t content >>= r.deliver t) a := by
  have houtput : exec (r.output t) a = exec ((r.prepare v t >>= fun _ => r.renderView v) >>= r.surround t) a := by
    unfold output
    rw [exec_bind_ok (exec_context a), hv, bind_assoc]
    rfl
  change exec (r.output t >>= r.deliver t) a = _
  rw [← bind_assoc, exec_bind, houtput, ← exec_bind]

/-- The surroundings of a content execute none but the files of the wrap, which see nothing but the content. -/
theorem adds_surround {t : Tag} {content : String} {a : Run σ}
    (h : ∀ w, t.wrap ≠ "" → r.resolveWrap a.ctx.seeds t.wrap = .ok w →
      ∀ region ∈ Region.ofWrap, P (.executed (regionPath w region) (w.wrapScene content a.ctx.runtime))) :
    Adds P (r.surround t content) a := by
  unfold surround
  split
  · exact .ret _ a
  · rename_i hnonempty
    refine .context ?_
    cases hw : r.resolveWrap a.ctx.seeds t.wrap with
    | error e => exact .fail e a
    | ok w => exact adds_renderWrap r w (h w (by simpa using hnonempty) hw)

include hfired in
theorem adds_deliver (t : Tag) (output : String) (a : Run σ) : Adds P (r.deliver t output) a :=
  (Adds.change _ a).bind fun _ b _ => .context ((Adds.fire r (hfired _ _) b).bind fun _ c _ => .change _ c)

/-- A tag asks for a view: as the one that it stands for, or as its wrap. -/
inductive Asks (r : Renderer σ) (seeds : Seeds) (t : Tag) : View → Prop
  | target {v : View} : r.resolveSeeded seeds t = .ok v → Asks r seeds t v
  | wrap {w : View} : t.wrap ≠ "" → r.resolveWrap seeds t.wrap = .ok w → Asks r seeds t w

/-- Whatever is executed at the moment is a template of a view that the tag asks for. -/
def AskedFor (r : Renderer σ) (seeds : Seeds) (t : Tag) (m : Moment) : Prop :=
  ∀ path scene, m = .executed path scene → ∃ v, r.Asks seeds t v ∧ path ∈ v.templates

/-- A tag executes none but the templates of the views that it asks for, if its wrap is one. -/
theorem adds_renderTag (t : Tag) (a : Run σ)
    (hwrap : ∀ w, r.resolveWrap a.ctx.seeds t.wrap = .ok w → w.scheme = .wrap) :
    Adds (r.AskedFor a.ctx.seeds t) (r.renderTag t) a := by
  have hfired (event : Event) (payload : Payload) : r.AskedFor a.ctx.seeds t (.fired event payload) := nofun
  have hasked {v : View} (hv : r.Asks a.ctx.seeds t v) (path : String) (hpath : path ∈ v.templates) (scene : Scene) :
      r.AskedFor a.ctx.seeds t (.executed path scene) := by
    intro path' scene' heq
    rw [Moment.executed.injEq] at heq
    exact ⟨v, hv, heq.1 ▸ hpath⟩
  cases hv : r.resolveSeeded a.ctx.seeds t with
  | error e =>
    have hexec : exec (r.renderTag t) a = (.error e, a) := by
      unfold renderTag output
      rw [exec_bind, exec_bind_ok (exec_context a), hv]
      rfl
    exact .none (by rw [hexec])
  | ok v =>
    unfold Adds
    rw [exec_renderTag_of_resolve r hv]
    have hview : Adds (r.AskedFor a.ctx.seeds t) (r.prepare v t >>= fun _ => r.renderView v) a :=
      (adds_prepare r hfired v t a).bind fun _ b _ => adds_renderView r hfired v (hasked (.target hv)) b
    refine hview.bind fun content c hc => Adds.bind (adds_surround r fun w hnonempty hw region hregion => ?_) fun output d _ =>
      adds_deliver r hfired t output d
    rw [((local_content r v t).level_of_exec hc).seeds] at hw
    refine hasked (.wrap hnonempty hw) _ ?_ _
    unfold View.templates
    rw [hwrap w hw]
    exact List.mem_map_of_mem hregion

/-! ## Documents -/

variable {r}

/-- What the turns record is all that is recorded between the two states that they lead from and to. -/
theorem Led.added {a b : Run σ} {us : List (Turn σ)} {res : Except RenderError Unit} (h : r.Led a us res b)
    (hturns : ∀ u ∈ us, Adds P (r.renderTag u.tag) u.found) : a.Added P b := by
  induction h with
  | ended => exact .none rfl
  | broken => exact .none rfl
  | @failed t a b e ht =>
    have hturn := hturns ⟨t, a⟩ List.mem_cons_self
    unfold Adds at hturn
    rw [ht] at hturn
    exact hturn
  | @turn t a b c us res ht _ ih =>
    have hturn := hturns ⟨t, a⟩ List.mem_cons_self
    unfold Adds at hturn
    rw [ht] at hturn
    exact hturn.trans (ih fun u hu => hturns u (List.mem_cons_of_mem _ hu))
  | counted _ ih => exact ih hturns

section

include hfired

theorem adds_firePage (event : Event) (a : Run σ) : Adds P (r.firePage event) a :=
  .context ((Adds.fire r (hfired _ _) a).bind fun _ b _ => .ret _ b)

theorem adds_openPage {root : View} (hroot : ∀ scene, P (.executed root.includePath scene)) (a : Run σ) :
    Adds P (r.openPage root) a :=
  (adds_firePage hfired _ a).bind fun _ _ _ => .context ((adds_renderPage r root (hroot _)).bind fun _ c _ => .change _ c)

/-- A document executes nothing but the template of its root, and what its turns do. -/
theorem adds_renderFrom {root : View} {a : Run σ} (hroot : ∀ scene, P (.executed root.includePath scene))
    (hturns : ∀ u ∈ r.bodyTurns root a ++ r.headTurns root a, Adds P (r.renderTag u.tag) u.found) :
    Adds P (r.renderFrom root) a := by
  have hbody : Adds P (r.renderBody root) a := by
    refine (adds_openPage hfired hroot a).bind fun _ b hb => .context ?_
    refine Adds.bind ((led_pass r _ _ b).added fun u hu => hturns u (List.mem_append_left _ ?_)) fun _ c _ =>
      adds_firePage hfired _ c
    unfold bodyTurns
    rw [hb]
    exact hu
  rw [renderFrom_eq]
  refine hbody.bind fun _ b hb => ?_
  unfold renderHead
  refine .context (Adds.bind ((led_pass r _ _ b).added fun u hu => hturns u (List.mem_append_right _ ?_)) fun _ c _ =>
    (adds_firePage hfired _ c).bind fun _ d _ => .context (.ret _ d))
  unfold headTurns
  rw [hb]
  exact hu

end

end Renderer

end Folio
