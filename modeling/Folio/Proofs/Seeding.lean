import Folio.Proofs.Upkeep

/-!
# Seeded views

The views that a route names are looked up once, when the rendering of a document begins, and no turn finds others
(`seeds_of_mem_documentTurns`). The route itself is part of the runtime, which a listener may replace at any event. So a tag
without a name, and the default wrap, ask for what the opening route names, wherever the route has gone meanwhile
(`render_seeded`): that is what the current route names while the listener leaves the route alone (`Listener.Leaves`), and
need not be otherwise (`render_outlives_route`).
-/

namespace Folio

/-- The name that a route gives for a scheme. -/
def Route.viewName (route : Route) : Scheme → String
  | .theme => route.theme
  | .page => route.page
  | .template => route.template
  | .wrap => route.wrap

/-- A listener answers with no runtime but one that routes a scheme to the name that it was told. -/
def Listener.Leaves {σ : Type} (l : Listener σ) (scheme : Scheme) : Prop :=
  ∀ s event payload, ∀ runtime ∈ (l s event payload).1.runtime,
    runtime.route.viewName scheme = payload.runtime.route.viewName scheme

/-- No kind of tag is looked up among the themes. -/
theorem Scheme.ofKind_ne_theme (kind : String) : ofKind kind ≠ theme := by
  unfold ofKind
  dsimp only
  split
  · exact nofun
  · split <;> exact nofun

namespace Renderer

open Rendering

variable {σ : Type} {r : Renderer σ}

/-! ## What a route names -/

/-- A route names a view for a scheme: its name for the scheme is not blank, and the view is found under it. -/
structure Names (r : Renderer σ) (route : Route) (scheme : Scheme) (v : View) : Prop where
  nonblank : Text.isBlankText (route.viewName scheme) = false
  lookup : r.lookup scheme (route.viewName scheme) = .ok v

variable {route opening current : Route} {scheme : Scheme} {name : String} {v : View}

theorem seed?_eq_some_iff : r.seed? scheme (route.viewName scheme) = some v ↔ r.Names route scheme v := by
  unfold seed?
  constructor
  · intro h
    split at h
    · cases h
    · rename_i hblank
      exact ⟨Bool.eq_false_iff.mpr hblank, eq_ok_of_toOption h⟩
  · intro h
    rw [h.nonblank, h.lookup]
    rfl

/-- The seeds are the views that the route names. -/
theorem seedsOf_get?_eq_some_iff (hscheme : scheme ≠ .theme) :
    (r.seedsOf route).get? scheme = some v ↔ r.Names route scheme v := by
  rw [← seed?_eq_some_iff]
  cases scheme with
  | theme => exact absurd rfl hscheme
  | page => exact Iff.rfl
  | template => exact Iff.rfl
  | wrap => exact Iff.rfl

/-- What is asked for by the route, in a scheme and under a name of its own: the view that the opening route names, or else what
the name itself stands for. While the current route gives the same name, that is the view that the current route names. -/
structure Routed (r : Renderer σ) (opening current : Route) (scheme : Scheme) (name : String)
    (resolved : Except RenderError View) : Prop where
  named : ∀ v, r.Names opening scheme v → resolved = .ok v
  unnamed : (∀ v, ¬ r.Names opening scheme v) → resolved = r.lookup scheme name
  unmoved : current.viewName scheme = opening.viewName scheme → ∀ v, r.Names current scheme v → resolved = .ok v

/-- The seeded view of a scheme, or else what a name stands for. -/
def seededOr (r : Renderer σ) (seeds : Seeds) (scheme : Scheme) (name : String) : Except RenderError View :=
  match seeds.get? scheme with
  | some v => .ok v
  | none => r.lookup scheme name

theorem routed_seededOr (hscheme : scheme ≠ .theme) :
    r.Routed opening current scheme name (r.seededOr (r.seedsOf opening) scheme name) := by
  have hnamed : ∀ v, r.Names opening scheme v → r.seededOr (r.seedsOf opening) scheme name = .ok v := by
    intro v hv
    unfold seededOr
    rw [(seedsOf_get?_eq_some_iff hscheme).mpr hv]
  refine ⟨hnamed, ?_, ?_⟩
  · intro hnone
    unfold seededOr
    cases hget : (r.seedsOf opening).get? scheme with
    | none => rfl
    | some v => exact absurd ((seedsOf_get?_eq_some_iff hscheme).mp hget) (hnone v)
  · intro hsame v hv
    exact hnamed v ⟨hsame ▸ hv.nonblank, hsame ▸ hv.lookup⟩

/-- A tag without a name asks for what the route names. -/
theorem resolveSeeded_eq_seededOr {t : Tag} (h : t.name = "") (seeds : Seeds) :
    r.resolveSeeded seeds t = r.seededOr seeds (.ofKind t.kind) "" := by
  unfold resolveSeeded resolveTag
  rw [h]
  rfl

/-- The default wrap is what the route names. -/
theorem resolveWrap_eq_seededOr (h : Text.eqIgnoringCase name defaultWrap = true) (seeds : Seeds) :
    r.resolveWrap seeds name = r.seededOr seeds .wrap name := by
  unfold resolveWrap
  rw [if_pos h]
  rfl

/-! ## The seeds of a turn -/

variable {root : View} {runtime : Runtime} {listener : σ} {u : Turn σ} {content : String} {b : Run σ}

/-- Every turn finds the seeds of the route that the rendering began with. -/
theorem seeds_of_mem_documentTurns
    (hu : u ∈ r.bodyTurns root (r.initial runtime listener) ++ r.headTurns root (r.initial runtime listener)) :
    u.found.ctx.seeds = r.seedsOf runtime.route := by
  refine invariant_of_mem_documentTurns (P := fun a => a.ctx.seeds = r.seedsOf runtime.route) ?_ ?_ ?_ ?_ hu
  · exact fun hopen => ((local_openPage r root).level_of_exec hopen).seeds
  · exact fun hc ht => ((local_renderTag r _).level_of_exec ht).seeds.trans hc
  · exact fun hc => hc
  · exact fun hc hfire => ((local_firePage r _).level_of_exec hfire).seeds.trans hc

/-- The view of a turn has given a content, and led to the state in which the turn goes on to its wrap. -/
def Wraps (r : Renderer σ) (u : Turn σ) (content : String) (b : Run σ) : Prop :=
  ∃ v, r.resolveSeeded u.found.ctx.seeds u.tag = .ok v ∧
    exec (r.prepare v u.tag >>= fun _ => r.renderView v) u.found = (.ok content, b)

/-- The output of a turn is its content with the resolved wrap around it. -/
theorem Wraps.exec_output {w : View} (h : r.Wraps u content b) (hwrap : u.tag.wrap ≠ "")
    (hw : r.resolveWrap b.ctx.seeds u.tag.wrap = .ok w) :
    exec (r.output u.tag) u.found = exec (r.renderWrap w content) b := by
  obtain ⟨v, hv, hcontent⟩ := h
  obtain ⟨_, mid, hprepare, hview⟩ := ok_of_exec_bind hcontent
  unfold output
  rw [exec_bind_ok (exec_context u.found), hv]
  dsimp only
  unfold renderTarget
  rw [exec_bind_ok hprepare, exec_bind_ok hview, if_neg (by simpa using hwrap), exec_bind_ok (exec_context b), hw]

/-- A turn with an output has gone on to its wrap. -/
theorem exists_wraps {output : String} {c : Run σ} (h : exec (r.output u.tag) u.found = (.ok output, c)) :
    ∃ content b, r.Wraps u content b := by
  unfold Renderer.output at h
  rw [exec_bind_ok (exec_context u.found)] at h
  split at h
  · cases h
  · rename_i v hv
    obtain ⟨_, mid, hprepare, h⟩ := ok_of_exec_bind h
    obtain ⟨content, b, hview, -⟩ := ok_of_exec_bind h
    refine ⟨content, b, v, hv, ?_⟩
    rw [exec_bind_ok hprepare]
    exact hview

theorem Wraps.seeds (h : r.Wraps u content b) : b.ctx.seeds = u.found.ctx.seeds := by
  obtain ⟨v, -, hcontent⟩ := h
  exact ((local_content r v u.tag).level_of_exec hcontent).seeds

/-! ## Listeners that leave the route alone -/

section

variable (hleaves : r.listener.Leaves scheme)
include hleaves

/-- A listener that leaves the route alone keeps the name that it gives. -/
theorem keeps_viewName (name : String) : r.listener.Keeps fun runtime => runtime.route.viewName scheme = name :=
  fun s event payload hname runtime hruntime => (hleaves s event payload runtime hruntime).trans hname

/-- Every turn finds the name that the opening route gives for a scheme which the listener leaves alone. -/
theorem viewName_of_mem_documentTurns
    (hu : u ∈ r.bodyTurns root (r.initial runtime listener) ++ r.headTurns root (r.initial runtime listener)) :
    u.found.ctx.runtime.route.viewName scheme = runtime.route.viewName scheme :=
  runtime_of_mem_documentTurns (keeps_viewName hleaves _) rfl hu

theorem Wraps.viewName (h : r.Wraps u content b) :
    b.ctx.runtime.route.viewName scheme = u.found.ctx.runtime.route.viewName scheme := by
  have hkeeps := keeps_viewName hleaves (u.found.ctx.runtime.route.viewName scheme)
  obtain ⟨v, -, hcontent⟩ := h
  exact runtime_of_sim (sim_content_keeps hkeeps v u.tag) rfl hcontent

end

/-! ## Documents -/

/-- Every tag without a name, and every default wrap, asks for what the opening route of the document names. If the listener
leaves the names of a scheme alone, that is at all times what the current route names. -/
theorem render_seeded (r : Renderer σ) (root : View) (runtime : Runtime) (listener : σ) :
    let start := r.initial runtime listener
    ∀ u ∈ r.bodyTurns root start ++ r.headTurns root start,
      (u.tag.name = "" →
        r.Routed runtime.route u.found.ctx.runtime.route (.ofKind u.tag.kind) "" (r.resolveSeeded u.found.ctx.seeds u.tag) ∧
        (r.listener.Leaves (.ofKind u.tag.kind) → ∀ v, r.Names u.found.ctx.runtime.route (.ofKind u.tag.kind) v →
          r.resolveSeeded u.found.ctx.seeds u.tag = .ok v)) ∧
      (∀ content b, r.Wraps u content b → Text.eqIgnoringCase u.tag.wrap defaultWrap = true →
        r.Routed runtime.route b.ctx.runtime.route .wrap u.tag.wrap (r.resolveWrap b.ctx.seeds u.tag.wrap) ∧
        (r.listener.Leaves .wrap → ∀ w, r.Names b.ctx.runtime.route .wrap w →
          r.resolveWrap b.ctx.seeds u.tag.wrap = .ok w) ∧
        (∀ w, r.resolveWrap b.ctx.seeds u.tag.wrap = .ok w →
          exec (r.output u.tag) u.found = exec (r.renderWrap w content) b)) := by
  intro start u hu
  have hseeds := seeds_of_mem_documentTurns hu
  refine ⟨?_, ?_⟩
  · intro hname
    have hrouted : r.Routed runtime.route u.found.ctx.runtime.route (.ofKind u.tag.kind) ""
        (r.resolveSeeded u.found.ctx.seeds u.tag) := by
      rw [resolveSeeded_eq_seededOr hname, hseeds]
      exact routed_seededOr (Scheme.ofKind_ne_theme _)
    exact ⟨hrouted, fun hleaves => hrouted.unmoved (viewName_of_mem_documentTurns hleaves hu)⟩
  · intro content b hb hdefault
    have hrouted : r.Routed runtime.route b.ctx.runtime.route .wrap u.tag.wrap
        (r.resolveWrap b.ctx.seeds u.tag.wrap) := by
      rw [resolveWrap_eq_seededOr hdefault, hb.seeds, hseeds]
      exact routed_seededOr nofun
    have hwrap : u.tag.wrap ≠ "" := by
      intro hempty
      rw [hempty] at hdefault
      revert hdefault
      decide +kernel
    refine ⟨hrouted, fun hleaves => ?_, fun w hw => hb.exec_output hwrap hw⟩
    exact hrouted.unmoved ((hb.viewName hleaves).trans (viewName_of_mem_documentTurns hleaves hu))

/-- A renderer of two pages and a frame around them. Whatever page a request asks for, the listener routes it to the second one
as soon as its document begins. -/
def rerouting : Renderer Unit where
  resolve := Keyed.get?
    ([View.conventional .page "a", .conventional .page "b", .conventional .wrap "div"].foldl Catalog.insert [])
  hasTemplate path := path ∈ ["page/a.tera", "page/b.tera", "theme/default.tera", "theme/framed.tera", "wrap/div/body.tera"]
  execute path scene :=
    .ok (if path = "page/a.tera" then "A"
      else if path = "page/b.tera" then "B"
      else if path = "theme/default.tera" then "<include type=page />"
      else if path = "theme/framed.tera" then "<include type=page wrap=default />"
      else "(" ++ ((Keyed.get? scene.row "content").bind Data.text?).getD "" ++ ")")
  listener _ event payload :=
    if event = .beforeParse then
      ({ runtime := some { payload.runtime with route := { payload.runtime.route with page := "b" } } }, ())
    else (.unchanged, ())

/-- A route that names one of the views of `rerouting` names it. -/
theorem names_rerouting {route : Route} {scheme : Scheme} {name : String} (h : route.viewName scheme = name)
    (hv : (scheme, name) ∈ [(.page, "a"), (.page, "b"), (.wrap, "div")]) :
    rerouting.Names route scheme (.conventional scheme name) := by
  have hview : Text.isBlankText name = false ∧ rerouting.lookup scheme name = .ok (.conventional scheme name) := by
    simp only [List.mem_cons, Prod.mk.injEq, List.not_mem_nil, or_false] at hv
    rcases hv with ⟨rfl, rfl⟩ | ⟨rfl, rfl⟩ | ⟨rfl, rfl⟩
    · exact ⟨by decide +kernel, by rfl⟩
    · exact ⟨by decide +kernel, by rfl⟩
    · exact ⟨by decide +kernel, by rfl⟩
  rw [← h] at hview
  exact ⟨hview.1, h ▸ hview.2⟩

/-- A tag without a name is resolved to the first page, although the current route names the second. -/
theorem render_outlives_route :
    let root := View.conventional .theme "default"
    let runtime : Runtime := { route := { page := "a" } }
    (∃ u ∈ rerouting.bodyTurns root (rerouting.initial runtime ()), u.tag.name = "" ∧ Scheme.ofKind u.tag.kind = .page ∧
        rerouting.Names u.found.ctx.runtime.route .page (.conventional .page "b") ∧
        rerouting.resolveSeeded u.found.ctx.seeds u.tag ≠ .ok (.conventional .page "b")) ∧
      (rerouting.render root runtime ()).1 = .ok "A" := by
  intro root runtime
  refine ⟨?_, eq_ok_of_toOption (by decide +kernel)⟩
  have hmem : ("", "page", "b") ∈ (rerouting.bodyTurns root (rerouting.initial runtime ())).map fun u =>
      (u.tag.name, u.tag.kind, u.found.ctx.runtime.route.page) := by decide +kernel
  obtain ⟨u, hu, heq⟩ := List.mem_map.mp hmem
  simp only [Prod.mk.injEq] at heq
  obtain ⟨hname, hkind, hpage⟩ := heq
  have hscheme : Scheme.ofKind u.tag.kind = .page := by rw [hkind]; decide +kernel
  have hnames : rerouting.Names u.found.ctx.runtime.route .page (.conventional .page "b") := names_rerouting hpage (by simp)
  have hrouted : rerouting.Routed runtime.route u.found.ctx.runtime.route .page ""
      (rerouting.resolveSeeded u.found.ctx.seeds u.tag) := by
    rw [resolveSeeded_eq_seededOr hname, seeds_of_mem_documentTurns (List.mem_append_left _ hu), hscheme]
    exact routed_seededOr nofun
  have hopening : rerouting.Names runtime.route .page (.conventional .page "a") := names_rerouting rfl (by simp)
  refine ⟨u, hu, hname, hscheme, hnames, ?_⟩
  rw [hrouted.named _ hopening]
  intro h
  have hpath := congrArg View.includePath (Except.ok.inj h)
  revert hpath
  decide +kernel

/-- The listener leaves the wrap alone. -/
theorem leaves_wrap_rerouting : rerouting.listener.Leaves .wrap := by
  intro _ event payload runtime hruntime
  change runtime ∈ (ite (event = .beforeParse) _ _ : Outcome × Unit).1.runtime at hruntime
  split at hruntime
  · rw [← Option.some.inj hruntime]
    rfl
  · cases hruntime

/-- `render_seeded` of `rerouting`: the page is the one that the request asked for, and the frame around it the one that the
current route still names. -/
theorem render_seeded_framed :
    let root := View.conventional .theme "framed"
    let runtime : Runtime := { route := { page := "a", wrap := "div" } }
    let start := rerouting.initial runtime ()
    (∃ u ∈ rerouting.bodyTurns root start ++ rerouting.headTurns root start, u.tag.name = "" ∧ u.tag.wrap = "default" ∧
        rerouting.resolveSeeded u.found.ctx.seeds u.tag = .ok (.conventional .page "a") ∧
        ∃ content b, rerouting.Wraps u content b ∧ rerouting.Names b.ctx.runtime.route .wrap (.conventional .wrap "div") ∧
          exec (rerouting.output u.tag) u.found = exec (rerouting.renderWrap (.conventional .wrap "div") content) b) ∧
      (rerouting.render root runtime ()).1 = .ok "(A)" := by
  intro root runtime start
  have hpage : (rerouting.render root runtime ()).1 = .ok "(A)" := eq_ok_of_toOption (by decide +kernel)
  have hmem : ("", "page", "default") ∈ (rerouting.bodyTurns root start ++ rerouting.headTurns root start).map fun u =>
      (u.tag.name, u.tag.kind, u.tag.wrap) := by decide +kernel
  obtain ⟨u, hu, heq⟩ := List.mem_map.mp hmem
  simp only [Prod.mk.injEq] at heq
  obtain ⟨hname, hkind, hwrap⟩ := heq
  obtain ⟨hasked, hwrapped⟩ := render_seeded rerouting root runtime () u hu
  -- the page is the one of the opening route
  have hopening : rerouting.Names runtime.route (.ofKind u.tag.kind) (.conventional .page "a") := by
    have hscheme : Scheme.ofKind u.tag.kind = .page := by rw [hkind]; decide +kernel
    rw [hscheme]
    exact names_rerouting rfl (by simp)
  have hresolved := (hasked hname).1.named _ hopening
  -- the wrap is the one of the current route
  obtain ⟨c, hc⟩ := renderTag_of_mem_documentTurns (Prod.ext hpage rfl) hu
  obtain ⟨output, d, houtput, -⟩ := ok_of_exec_bind hc
  obtain ⟨content, b, hb⟩ := exists_wraps houtput
  have hnames : rerouting.Names b.ctx.runtime.route .wrap (.conventional .wrap "div") := by
    have hroute : b.ctx.runtime.route.viewName .wrap = "div" :=
      (hb.viewName leaves_wrap_rerouting).trans (viewName_of_mem_documentTurns leaves_wrap_rerouting hu)
    exact names_rerouting hroute (by simp)
  obtain ⟨-, hcurrent, happlied⟩ := hwrapped content b hb (by rw [hwrap]; decide +kernel)
  have houtput := happlied _ (hcurrent leaves_wrap_rerouting _ hnames)
  exact ⟨⟨u, hu, hname, hwrap, hresolved, content, b, hb, hnames, houtput⟩, hpage⟩

end Renderer

end Folio
