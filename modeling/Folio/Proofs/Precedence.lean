import Folio.Proofs.Rows
import Folio.Proofs.Seeding
import Folio.Proofs.Sources
import Folio.Proofs.Sparse
import Folio.Proofs.Trace

/-!
# The precedence of parameters

The parameters that a file is shown come from several sides, laid over each other: `Keyed.Layered` says that a key has the value
of the highest layer that has it. Over the parameters of a view lie those nested in the elements that it is bound to, over these
the attributes of its tag (`overlays`), and in the rows of a template the place of the row over all of them. Under a listener that
changes nothing the files of a view see just that (`adds_renderView_repeats`), and those of the wrap around it nothing of it. Since
no turn finds another runtime than the one of the request, none of that depends on what was rendered before (`render_layers`).
-/

namespace Folio

/-! ## What a view is bound to -/

namespace Binding

variable {v : View} {runtime : Runtime}

/-- The elements that the rows of a view are made of. -/
def elementsFor (v : View) (runtime : Runtime) : List Data :=
  match source v runtime with
  | .ok (some (data, _)) => elements data
  | _ => []

/-- What lies over the parameters of the view of a tag, the highest first: the attributes of the tag, and the parameters nested in
the elements that the view is bound to, the later elements before the earlier. -/
def overlays (v : View) (t : Tag) (runtime : Runtime) : List Parameters :=
  (t.attributes.map fun (k, s) => (k, Data.text s)) :: ((elementsFor v runtime).map nestedParameters).reverse

/-- The rows that a view is bound to are those of its elements, and the parameters nested in these lie over its own. -/
theorem layered_bind {bound : Binding} (h : bind v runtime = .ok bound) :
    bound.rows = (elementsFor v runtime).map rowOf ∧
      Keyed.Layered ((elementsFor v runtime).map nestedParameters).reverse v.parameters bound.parameters := by
  unfold elementsFor
  unfold bind at h
  split at h
  · cases h
  · rename_i hsource
    rw [hsource, ← Except.ok.inj h]
    exact ⟨rfl, Keyed.layered_nil _⟩
  · rename_i data registry hsource
    rw [hsource, ← Except.ok.inj h]
    exact ⟨rfl, layered_parametersFrom v.parameters data⟩

/-- The attributes of a tag over the parameters that its view is bound to are the overlays over those of the view. -/
theorem layered_overlays {bound : Binding} (h : bind v runtime = .ok bound) (t : Tag) :
    Keyed.Layered (overlays v t runtime) v.parameters
      (Keyed.extend bound.parameters (t.attributes.map fun (k, s) => (k, Data.text s))) :=
  (layered_bind h).2.extend _

end Binding

namespace Renderer

open Rendering Binding

variable {σ : Type} {r : Renderer σ} {v : View} {P : Moment → Prop}

/-- The view is a template without a file for all rows at once. -/
def RowByRow (r : Renderer σ) (v : View) : Prop :=
  v.scheme = .template ∧ r.hasTemplate (regionPath v .custom) = false

/-- The states that a listener which changes nothing leads through have one runtime. -/
theorem keeps_of_repeats (hrepeats : r.listener.Repeats) (runtime : Runtime) : r.listener.Keeps (· = runtime) := by
  intro s event payload hpayload answered hanswered
  exact ((hrepeats s event payload).runtime answered hanswered).symm.trans hpayload

/-! ## What the files of a view see -/

section

variable (hfired : ∀ event payload, P (.fired event payload)) (hrepeats : r.listener.Repeats)
include hfired hrepeats

/-- The regions of some stages see the row and the context, but for the text of the view. -/
theorem adds_renderStages_repeats {c : Context} {row : Row} (stages : List (Event × Region))
    (h : ∀ region, P (.executed (regionPath v region) (c.scene row))) {a : Run σ} {text : String}
    (ha : a.ctx = { c with renderedView := text }) : Adds P (r.renderStages v stages row) a := by
  induction stages generalizing a text with
  | nil => exact .ret _ a
  | cons stage rest ih =>
    rw [renderStages_cons]
    refine (adds_fireRow r hfired stage.1 row a).bind fun row' b hb => ?_
    obtain ⟨b', hb', hctx⟩ := exec_fireRow_repeats hrepeats stage.1 row a
    rw [hb', Prod.mk.injEq, Except.ok.injEq] at hb
    obtain ⟨rfl, rfl⟩ := hb
    rw [ha] at hctx
    refine (adds_appendRegion r v ?_).bind fun _ d hd => ?_
    · rw [hctx]
      exact h stage.2
    · obtain ⟨text', hd'⟩ := (appends_appendRegion r v stage.2 row c).ctx_of_ok hctx hd
      exact ih hd'

/-- The regions of the row at an index see what they are shown of it. -/
theorem adds_renderRow_repeats {ctx : Context} {i : Nat} {row : Row} (hrow : ctx.rows[i]? = some row)
    (h : ∀ region, P (.executed (regionPath v region) (ctx.sceneAt i))) {a : Run σ} {text : String}
    (ha : a.ctx = { ctx.before i with renderedView := text }) :
    Adds P (r.renderRow v ctx.rows.length i (parityAt i) row) a := by
  rw [renderRow_eq]
  refine (Adds.change _ a).bind fun _ b hb => ?_
  have hctx : b.ctx = { ctx.during i with renderedView := text } := by
    rw [exec_change, ha] at hb
    cases hb
    exact ctx.place_before i text
  rw [← Context.scene_during hrow] at h
  exact (adds_renderStages_repeats hfired hrepeats _ h hctx).bind fun _ c _ => .change _ c

/-- The regions of the rows from an index on see what they are shown of their rows. -/
theorem adds_renderRows_repeats {ctx : Context} {i k : Nat} (hk : i + k = ctx.rows.length)
    (h : ∀ i row, ctx.rows[i]? = some row → ∀ region, P (.executed (regionPath v region) (ctx.sceneAt i))) {a : Run σ}
    {text : String} (ha : a.ctx = { ctx.before i with renderedView := text }) :
    Adds P (r.renderRows v ctx.rows.length i (parityAt i) (ctx.rows.drop i)) a := by
  induction k generalizing i a text with
  | zero =>
    rw [List.drop_of_length_le (by omega)]
    exact .ret _ a
  | succ k ih =>
    have hlt : i < ctx.rows.length := by omega
    have hrow : ctx.rows[i]? = some ctx.rows[i] := List.getElem?_eq_getElem hlt
    rw [List.drop_eq_getElem_cons hlt, renderRows_cons]
    refine (adds_renderRow_repeats hfired hrepeats hrow (h i _ hrow) ha).bind fun _ b hb => ?_
    obtain ⟨text', hb'⟩ := (appends_renderRow hrepeats (v := v) ctx hrow).ctx_of_ok ha hb
    exact ih (by omega) hb'

/-- A template without a file for all rows at once shows its files their rows. -/
theorem adds_renderTemplate_repeats (hcustom : r.hasTemplate (regionPath v .custom) = false) {a : Run σ}
    (h : ∀ i row, a.ctx.rows[i]? = some row → ∀ region, P (.executed (regionPath v region) (a.ctx.sceneAt i))) :
    Adds P (r.renderTemplate v) a := by
  cases hregions : r.hasAnyRegion v Region.ofTemplate with
  | false =>
    unfold renderTemplate
    rw [hregions]
    exact (Adds.fail _ a).bind fun _ b hb => by cases hb
  | true =>
    unfold Adds
    rw [exec_renderTemplate_rows r v hregions hcustom a]
    have hrows : Adds P (r.renderRows v a.ctx.rows.length 0 (parityAt 0) a.ctx.rows) (blankView a) :=
      adds_renderRows_repeats hfired hrepeats (Nat.zero_add _) h rfl
    exact hrows.bind fun _ b _ => .context (.ret _ b)

/-- The files of a page or a template see the context of the view, and those of a template that goes through its rows see what they
are shown of their rows. -/
theorem adds_renderView_repeats (hscheme : v.scheme = .page ∨ v.scheme = .template) {a : Run σ}
    (hsingle : ¬ r.RowByRow v → ∀ path ∈ v.templates, ∀ row, P (.executed path (a.ctx.scene row)))
    (hrows : r.RowByRow v → ∀ i row, a.ctx.rows[i]? = some row → ∀ path ∈ v.templates, P (.executed path (a.ctx.sceneAt i))) :
    Adds P (r.renderView v) a := by
  unfold renderView
  rcases hscheme with hscheme | hscheme
  · have hpath : v.includePath ∈ v.templates := by
      unfold View.templates
      rw [hscheme]
      exact List.mem_cons_self
    have hnot : ¬ r.RowByRow v := fun h => by
      rw [RowByRow, hscheme] at h
      exact nomatch h.1
    rw [hscheme]
    exact .context (adds_renderPage r v (hsingle hnot _ hpath _))
  · have hpath (region : Region) : regionPath v region ∈ v.templates := by
      unfold View.templates
      rw [hscheme]
      exact List.mem_map_of_mem region.mem_ofTemplate
    rw [hscheme]
    cases hcustom : r.hasTemplate (regionPath v .custom) with
    | false =>
      exact adds_renderTemplate_repeats hfired hrepeats hcustom fun i row hrow region =>
        hrows ⟨hscheme, hcustom⟩ i row hrow _ (hpath region)
    | true =>
      have hnot : ¬ r.RowByRow v := fun h => by
        rw [RowByRow, hcustom] at h
        exact nomatch h.2
      dsimp only
      unfold renderTemplate
      refine adds_unless_missing v ?_
      dsimp only
      rw [if_pos hcustom]
      exact .context ((Adds.run r (hsingle hnot _ (hpath _) _) a).bind fun _ b _ => (Adds.change _ b).bind fun _ c _ => .ret _ c)

end

/-! ## What the files of a tag see -/

/-- Whatever is executed at the moment is a file of the view of a tag. Its parameters are the overlays of the tag over those of the
view, and where the view goes through its rows, the place of the row lies over them. -/
def ShowsLayers (r : Renderer σ) (v : View) (t : Tag) (runtime : Runtime) (m : Moment) : Prop :=
  ∀ path scene, m = .executed path scene →
    path ∈ v.templates ∧
    (¬ r.RowByRow v → Keyed.Layered (overlays v t runtime) v.parameters scene.parameters) ∧
    (r.RowByRow v → ∃ i element, (elementsFor v runtime)[i]? = some element ∧
      scene.row = Keyed.extend (rowOf element) (decoration i (elementsFor v runtime).length) ∧
      Keyed.Layered (decoration i (elementsFor v runtime).length :: overlays v t runtime) v.parameters scene.parameters)

/-- Whatever is executed at the moment is a file of the wrap that a tag asks for. It is shown the content that the view gave and the
parameters of the wrap, and nothing else but the runtime. -/
def ShowsContent (r : Renderer σ) (t : Tag) (runtime : Runtime) (shown : Except RenderError String) (m : Moment) : Prop :=
  ∀ path scene, m = .executed path scene → ∃ w content, t.wrap ≠ "" ∧
    r.resolveWrap (r.seedsOf runtime.route) t.wrap = .ok w ∧ shown = .ok content ∧
    path ∈ Region.ofWrap.map (regionPath w) ∧ scene = w.wrapScene content runtime

section

variable (hrepeats : r.listener.Repeats)
include hrepeats

/-- The files of the view of a tag are shown the layers of the tag. -/
theorem adds_view_layers (hscheme : v.scheme = .page ∨ v.scheme = .template) (t : Tag) {runtime : Runtime} {a : Run σ}
    (hruntime : a.ctx.runtime = runtime) :
    Adds (r.ShowsLayers v t runtime) (r.prepare v t >>= fun _ => r.renderView v) a := by
  have hfired (event : Event) (payload : Payload) : r.ShowsLayers v t runtime (.fired event payload) := nofun
  refine (adds_prepare r hfired v t a).bind fun _ b hb => ?_
  obtain ⟨e, -, hfailed⟩ | ⟨bound, b', hbound, hprepared, hctx⟩ := exec_prepare_repeats hrepeats v t a
  · rw [hb] at hfailed
    cases hfailed
  rw [hb] at hprepared
  cases hprepared
  rw [hruntime] at hbound
  have hlayered := layered_overlays hbound t
  have hparameters : b.ctx.parameters = Keyed.extend bound.parameters (t.attributes.map fun (k, s) => (k, Data.text s)) := by
    rw [hctx]
    rfl
  have hrows : b.ctx.rows = (elementsFor v runtime).map rowOf := by
    rw [hctx]
    exact (layered_bind hbound).1
  rw [← hparameters] at hlayered
  refine adds_renderView_repeats hfired hrepeats hscheme ?_ ?_
  · intro hsingle path hpath row path' scene heq
    cases heq
    exact ⟨hpath, fun _ => hlayered, fun h => absurd h hsingle⟩
  · intro hrow i row hi path hpath path' scene heq
    cases heq
    refine ⟨hpath, fun h => absurd hrow h, fun _ => ?_⟩
    have hlength : b.ctx.rows.length = (elementsFor v runtime).length := by rw [hrows, List.length_map]
    have helement : ((elementsFor v runtime).map rowOf)[i]? = some row := hrows ▸ hi
    rw [List.getElem?_map, Option.map_eq_some_iff] at helement
    obtain ⟨element, helement, rfl⟩ := helement
    unfold Context.sceneAt
    rw [hi, hlength]
    exact ⟨i, element, helement, rfl, hlayered.extend _⟩

end

/-- The files of the wrap of a tag are shown the content alone. -/
theorem adds_wrap_alone (r : Renderer σ) (t : Tag) (content : String) {runtime : Runtime} {a : Run σ}
    (hruntime : a.ctx.runtime = runtime) (hseeds : a.ctx.seeds = r.seedsOf runtime.route) :
    Adds (r.ShowsContent t runtime (.ok content)) (r.surround t content >>= r.deliver t) a := by
  refine (adds_surround r fun w hnonempty hw region hregion => ?_).bind fun output b _ => adds_deliver r (fun _ _ => nofun) t output b
  intro path scene heq
  cases heq
  rw [hseeds] at hw
  rw [hruntime]
  exact ⟨w, content, hnonempty, hw, rfl, List.mem_map_of_mem hregion, rfl⟩

/-! ## Documents -/

/-- Every turn of a document under a listener that changes nothing, whose tag stands for a page or a template. It finds the runtime
and the seeds of the request, whatever was rendered before. The files of the view are shown the attributes of the tag over the
parameters nested in the elements that the view is bound to, later ones over earlier ones, and these over the parameters of the view
itself; in the rows of a template the place of the row lies over all of them. What is then executed until the end of the turn are
files of the wrap that the tag asks for, which are shown the content of the view and the parameters of the wrap, and nothing else. -/
theorem render_layers (r : Renderer σ) (hrepeats : r.listener.Repeats) (root : View) (runtime : Runtime) (listener : σ) :
    let start := r.initial runtime listener
    ∀ u ∈ r.bodyTurns root start ++ r.headTurns root start,
      u.found.ctx.runtime = runtime ∧ u.found.ctx.seeds = r.seedsOf runtime.route ∧
      ∀ v, r.resolveSeeded u.found.ctx.seeds u.tag = .ok v → v.scheme = .page ∨ v.scheme = .template →
        let shown := exec (r.prepare v u.tag >>= fun _ => r.renderView v) u.found
        u.found.Added (r.ShowsLayers v u.tag runtime) shown.2 ∧
          shown.2.Added (r.ShowsContent u.tag runtime shown.1) (exec (r.renderTag u.tag) u.found).2 := by
  intro start u hu
  have hkeeps := keeps_of_repeats hrepeats runtime
  have hruntime : u.found.ctx.runtime = runtime := runtime_of_mem_documentTurns hkeeps rfl hu
  have hseeds : u.found.ctx.seeds = r.seedsOf runtime.route := seeds_of_mem_documentTurns hu
  refine ⟨hruntime, hseeds, fun v hv hscheme => ⟨adds_view_layers hrepeats hscheme u.tag hruntime, ?_⟩⟩
  rw [exec_renderTag_of_resolve r hv]
  rcases hshown : exec (r.prepare v u.tag >>= fun _ => r.renderView v) u.found with ⟨e | content, b⟩
  · rw [exec_bind_error hshown]
    exact .none rfl
  · rw [exec_bind_ok hshown]
    exact adds_wrap_alone r u.tag content (runtime_of_sim (sim_content_keeps hkeeps v u.tag) hruntime hshown)
      (((local_content r v u.tag).level_of_exec hshown).seeds.trans hseeds)

/-- A list of the primary data, whose own parameters have keys that all other sides have too. -/
def layeredList : View :=
  { View.conventional .template "list" with
    parameters := [("even_or_odd", .text "v"), ("layout", .text "v"), ("model_name", .text "primary"), ("own", .text "v"),
      ("tone", .text "v")] }

/-- The primary data are two elements with parameters of their own. -/
def nestedElements : Runtime where
  primary := { data := .list [
    .object [("parameters", .object [("layout", .text "1"), ("tone", .text "1")])],
    .object [("parameters", .object [("layout", .text "2")])]] }

/-- A renderer of a document with two tags for the list, the second of them in a wrap. A row of the list shows some of its
parameters, and the wrap shows one of its own behind the content. The listener answers everything as it was told. -/
def layering : Renderer Unit where
  resolve := Keyed.get? ([layeredList, .conventional .wrap "div"].foldl Catalog.insert [])
  hasTemplate path := path ∈ ["template/list/body.tera", "theme/default.tera", "wrap/div/body.tera"]
  execute path scene :=
    let shown (key : String) : String := ((Keyed.get? scene.parameters key).bind Data.text?).getD "-"
    .ok (if path = "theme/default.tera" then "<include list tone=t /><include list layout=t wrap=div />"
      else if path = "template/list/body.tera" then shown "own" ++ shown "layout" ++ shown "tone" ++ shown "even_or_odd"
      else "(" ++ ((Keyed.get? scene.row "content").bind Data.text?).getD "" ++ shown "tone" ++ ")")
  listener _ _ payload := (Outcome.unchanged.fill payload, ())

theorem repeats_layering : layering.listener.Repeats := fun _ _ _ =>
  ⟨fun _ h => Option.some.inj h, fun _ h => h, fun _ h => h, fun _ h => h, fun _ h => h, fun _ h => h⟩

/-- `render_layers` of the second tag for the list. Its layout is over those nested in the elements, and its tone is not the one of
the tag before it. -/
theorem render_layers_colliding :
    let root := View.conventional .theme "default"
    let start := layering.initial nestedElements ()
    (∃ u ∈ layering.bodyTurns root start ++ layering.headTurns root start, u.tag.wrap = "div" ∧
      layering.resolveSeeded u.found.ctx.seeds u.tag = .ok layeredList ∧
      let shown := exec (layering.prepare layeredList u.tag >>= fun _ => layering.renderView layeredList) u.found
      u.found.Added (layering.ShowsLayers layeredList u.tag nestedElements) shown.2 ∧
        shown.2.Added (layering.ShowsContent u.tag nestedElements shown.1) (exec (layering.renderTag u.tag) u.found).2) ∧
      (layering.render root nestedElements ()).1 = .ok "v2toddv2teven(vt1oddvt1even-)" := by
  intro root start
  refine ⟨?_, eq_ok_of_toOption (by decide +kernel)⟩
  have hmem : ("list", "template", "div") ∈ (layering.bodyTurns root start).map fun u =>
      (u.tag.name, u.tag.kind, u.tag.wrap) := by decide +kernel
  obtain ⟨u, hu, heq⟩ := List.mem_map.mp hmem
  simp only [Prod.mk.injEq] at heq
  obtain ⟨hname, hkind, hwrap⟩ := heq
  have hturn := List.mem_append_left (layering.headTurns root start) hu
  obtain ⟨-, -, hlayers⟩ := render_layers layering repeats_layering root nestedElements () u hturn
  have hresolved : layering.resolveSeeded u.found.ctx.seeds u.tag = .ok layeredList := by
    unfold resolveSeeded resolveTag
    rw [hname, hkind]
    rfl
  exact ⟨u, hturn, hwrap, hresolved, hlayers layeredList hresolved (Or.inr rfl)⟩

end Renderer

end Folio
