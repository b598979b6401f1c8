import Folio.Proofs.Precedence

/-!
# Wraps in the place of tags

A tag can stand for a wrap. Like those of any other view, the parameters of the wrap are then overlaid with the attributes of the
tag, and the listener is told the result and may answer another (`exec_prepare_wrap`). The files of the wrap see none of that, but
the parameters of the wrap itself. So what they see is of some kind exactly if those are, or if there is no file to see it
(`added_wrap_iff`), and the attributes of the tag reach them only where they say nothing new (`shown_wrap_iff`).
-/

namespace Folio

/-- The attributes of a tag as parameters. -/
def Tag.texts (t : Tag) : Parameters :=
  t.attributes.map fun (k, s) => (k, Data.text s)

/-- If a template is executed at the moment, it sees parameters of some kind. -/
def Moment.Sees (P : Parameters → Prop) (m : Moment) : Prop :=
  ∀ path scene, m = .executed path scene → P scene.parameters

/-- What is added in two steps is of some kind exactly if what is added in each of them is. -/
theorem Run.Added.trans_iff {σ : Type} {P : Moment → Prop} {a b c : Run σ} (hab : a.Added (fun _ => True) b)
    (hbc : b.Added (fun _ => True) c) : a.Added P c ↔ a.Added P b ∧ b.Added P c := by
  refine ⟨?_, fun h => h.1.trans h.2⟩
  rintro ⟨added, hc, hall⟩
  obtain ⟨first, hb, -⟩ := hab
  obtain ⟨second, hc', -⟩ := hbc
  have hadded : added = second ++ first := by
    rw [hc', hb, ← List.append_assoc] at hc
    exact (List.append_cancel_right hc).symm
  rw [hadded] at hall
  exact ⟨⟨first, hb, fun m hm => hall m (List.mem_append_right _ hm)⟩,
    ⟨second, hc', fun m hm => hall m (List.mem_append_left _ hm)⟩⟩

/-- What a composed step adds is of some kind only if what its first part adds is. -/
theorem Rendering.Adds.left {σ α β : Type} {P : Moment → Prop} {x : Rendering σ α} {f : α → Rendering σ β} {a : Run σ}
    (h : Adds P (x >>= f) a) (hx : Adds (fun _ => True) x a) (hf : ∀ v b, Adds (fun _ => True) (f v) b) : Adds P x a := by
  unfold Adds at hx h ⊢
  rcases hxa : exec x a with ⟨e | v, b⟩
  · rw [exec_bind_error hxa] at h
    exact h
  · rw [hxa] at hx
    rw [exec_bind_ok hxa] at h
    exact ((Run.Added.trans_iff hx (hf v b)).mp h).1

namespace Renderer

open Rendering

variable {σ : Type} (r : Renderer σ) {v : View}

/-! ## The files of a wrap -/

theorem executed_of_adds_run {P : Moment → Prop} {path : String} {scene : Scene} {a : Run σ} (h : Adds P (r.run path scene) a) :
    P (.executed path scene) := by
  obtain ⟨added, hrecorded, hall⟩ := h
  rw [exec_run] at hrecorded
  have hadded : [.executed path scene] = added := List.append_cancel_right hrecorded
  exact hall _ (hadded ▸ List.mem_singleton_self _)

/-- Of some regions of which one has a file, one is executed. -/
theorem executed_of_adds_runRegions {P : Moment → Prop} {regions : List Region} {scene : Scene} {a : Run σ}
    (hfile : ∃ region ∈ regions, r.hasTemplate (regionPath v region) = true) (h : Adds P (r.runRegions v scene regions) a) :
    ∃ region ∈ regions, P (.executed (regionPath v region) scene) := by
  have anything (regions : List Region) (b : Run σ) : Adds (fun _ => True) (r.runRegions v scene regions) b :=
    adds_runRegions r v (fun _ _ => trivial) b
  induction regions with
  | nil => exact absurd hfile nofun
  | cons region rest ih =>
    have after (output : String) (b : Run σ) :
        Adds (fun _ => True) (r.runRegions v scene rest >>= fun outputs => pure (output ++ outputs)) b :=
      (anything rest b).bind fun _ c _ => .ret _ c
    unfold runRegions at h
    dsimp only at h
    split at h
    · exact ⟨region, List.mem_cons_self, executed_of_adds_run r (h.left (.run r trivial a) after)⟩
    · rename_i hnone
      rw [pure_bind] at h
      have hrest : ∃ region ∈ rest, r.hasTemplate (regionPath v region) = true := by
        obtain ⟨region', hmem, hhas⟩ := hfile
        rcases List.mem_cons.mp hmem with rfl | hmem
        · exact absurd hhas hnone
        · exact ⟨region', hmem, hhas⟩
      obtain ⟨region', hmem, hP⟩ := ih hrest (h.left (anything rest a) fun _ b => .ret _ b)
      exact ⟨region', List.mem_cons_of_mem _ hmem, hP⟩

/-- Some regions give their texts one after the other, or fail as the first of them that fails. -/
theorem text_runRegions (regions : List Region) (scene : Scene) (a : Run σ) :
    (exec (r.runRegions v scene regions) a).1 = joined (regions.map fun region => r.regionText v region scene) := by
  induction regions generalizing a with
  | nil => rfl
  | cons region rest ih =>
    have hrest (output : String) (b : Run σ) :
        (exec (r.runRegions v scene rest >>= fun outputs => pure (output ++ outputs)) b).1 =
          (joined (rest.map fun region => r.regionText v region scene)).map (output ++ ·) := by
      rw [← ih b, exec_bind]
      rcases exec (r.runRegions v scene rest) b with ⟨e | outputs, c⟩ <;> rfl
    rw [List.map_cons]
    unfold runRegions regionText
    dsimp only
    by_cases hfile : r.hasTemplate (regionPath v region) = true
    · rw [if_pos hfile, if_pos hfile]
      have hrun := exec_run r (regionPath v region) scene a
      cases hout : r.execute (regionPath v region) scene with
      | error e =>
        rw [hout] at hrun
        rw [exec_bind_error hrun]
        rfl
      | ok output =>
        rw [hout] at hrun
        rw [exec_bind_ok hrun]
        exact hrest output _
    · rw [if_neg hfile, if_neg hfile, pure_bind]
      exact hrest "" a

/-- What the files of a wrap see is of some kind exactly if the parameters of the wrap are, or if it has no file. -/
theorem adds_renderWrap_iff {P : Parameters → Prop} (content : String) (a : Run σ) :
    Adds (Moment.Sees P) (r.renderWrap v content) a ↔ r.hasAnyRegion v Region.ofWrap = false ∨ P v.parameters := by
  constructor
  · intro h
    cases hfile : r.hasAnyRegion v Region.ofWrap with
    | false => exact Or.inl rfl
    | true =>
      unfold renderWrap at h
      rw [hfile, Bool.not_true, if_neg Bool.false_ne_true] at h
      have hregions : Adds (Moment.Sees P) (r.runRegions v (v.wrapScene content a.ctx.runtime) Region.ofWrap) a := by
        unfold Adds at h ⊢
        dsimp only at h
        rw [exec_bind_ok (exec_context a)] at h
        exact h
      obtain ⟨region, -, hsees⟩ := executed_of_adds_runRegions r (List.any_eq_true.mp hfile) hregions
      exact Or.inr (hsees _ _ rfl)
  · rintro (hfile | hP)
    · unfold renderWrap
      rw [hfile]
      exact (Adds.fail _ a).bind fun _ b hb => by cases hb
    · refine adds_renderWrap r v fun region _ path scene heq => ?_
      cases heq
      exact hP

/-! ## The wrap of a tag -/

/-- What the listener is told when a tag has come to stand for a wrap. -/
def wrapPayload (v : View) (t : Tag) (ctx : Context) : Payload :=
  (ctx.beginView [] (Keyed.extend v.parameters t.texts) .null).viewPayload (some (.list []))

/-- A wrap is prepared without fail: it has no rows, its parameters are overlaid with the attributes of the tag, and the
listener is told so. -/
theorem exec_prepare_wrap (hscheme : v.scheme = .wrap) (t : Tag) (a : Run σ) :
    ∃ b, exec (r.prepare v t) a = (.ok (), b) ∧
      b.recorded = .fired .beforeRenderView (wrapPayload v t a.ctx) :: a.recorded := by
  have hbind : bind v a.ctx.runtime = .ok { parameters := v.parameters } := by
    have hsource : Binding.source v a.ctx.runtime = .ok none := by
      unfold Binding.source
      rw [hscheme]
      rfl
    unfold Folio.bind
    rw [hsource]
  unfold prepare
  rw [exec_bind_ok (exec_context a), hbind]
  dsimp only
  rw [exec_bind_ok (exec_change _ a), exec_bind_ok (exec_context _), exec_bind_ok (exec_fire r _ _ _)]
  dsimp only
  split
  · exact ⟨_, rfl, rfl⟩
  · exact ⟨_, rfl, rfl⟩

theorem exec_renderView_wrap (hscheme : v.scheme = .wrap) (a : Run σ) :
    exec (r.renderView v) a = exec (r.renderWrap v a.ctx.renderedView) a := by
  unfold renderView
  rw [hscheme]
  exact exec_bind_ok (exec_context a)

/-- What the files of the wrap of a tag see is of some kind exactly if the parameters of the wrap are, or if it has no file. -/
theorem added_wrap_iff {P : Parameters → Prop} (hscheme : v.scheme = .wrap) (t : Tag) (a : Run σ) :
    a.Added (Moment.Sees P) (exec (r.prepare v t >>= fun _ => r.renderView v) a).2 ↔
      r.hasAnyRegion v Region.ofWrap = false ∨ P v.parameters := by
  obtain ⟨b, hb, hrecorded⟩ := exec_prepare_wrap r hscheme t a
  have hprepared {Q : Moment → Prop} (hQ : Q (.fired .beforeRenderView (wrapPayload v t a.ctx))) : a.Added Q b :=
    ⟨[_], hrecorded, fun m hm => List.mem_singleton.mp hm ▸ hQ⟩
  have hwrap : b.Added (fun _ => True) (exec (r.renderWrap v b.ctx.renderedView) b).2 :=
    adds_renderWrap r v fun _ _ => trivial
  rw [exec_bind_ok hb, exec_renderView_wrap r hscheme, Run.Added.trans_iff (hprepared trivial) hwrap,
    and_iff_right (hprepared nofun)]
  exact adds_renderWrap_iff r _ b

/-- The wrap of a tag gives the texts of its header, its body and its footer around what the view was when it was prepared. -/
theorem text_wrap (hscheme : v.scheme = .wrap) (hfile : r.hasAnyRegion v Region.ofWrap = true) {t : Tag} {a b : Run σ}
    (hb : exec (r.prepare v t) a = (.ok (), b)) :
    (exec (r.prepare v t >>= fun _ => r.renderView v) a).1 =
      joined (Region.ofWrap.map fun region => r.regionText v region (v.wrapScene b.ctx.renderedView b.ctx.runtime)) := by
  rw [exec_bind_ok hb, exec_renderView_wrap r hscheme]
  unfold renderWrap
  rw [hfile, Bool.not_true, if_neg Bool.false_ne_true]
  dsimp only
  rw [exec_bind_ok (exec_context b)]
  exact text_runRegions r _ _ b

/-- Whatever is executed at the moment is a file of the wrap, and sees the parameters of the wrap itself. -/
def ShowsOwn (v : View) (m : Moment) : Prop :=
  ∀ path scene, m = .executed path scene → path ∈ v.templates ∧ scene.parameters = v.parameters

/-- Whatever is executed at the moment is a file of the wrap that a tag asks for around what its view gave, and sees nothing but
that content, the parameters of this wrap and the runtime. -/
def Surrounds (r : Renderer σ) (t : Tag) (ctx : Context) (shown : Except RenderError String) (m : Moment) : Prop :=
  ∀ path scene, m = .executed path scene → ∃ w content, r.resolveWrap ctx.seeds t.wrap = .ok w ∧ shown = .ok content ∧
    path ∈ Region.ofWrap.map (regionPath w) ∧ scene = w.wrapScene content ctx.runtime

/-- The files of the wrap of a tag see its own parameters. -/
theorem added_wrap_own (hscheme : v.scheme = .wrap) (t : Tag) (a : Run σ) :
    a.Added (ShowsOwn v) (exec (r.prepare v t >>= fun _ => r.renderView v) a).2 := by
  have htemplates : v.templates = Region.ofWrap.map (regionPath v) := by
    unfold View.templates
    rw [hscheme]
  refine Adds.bind (adds_prepare r (fun _ _ => nofun) v t a) fun _ b _ => ?_
  unfold renderView
  rw [hscheme]
  refine .context (adds_renderWrap r v fun region hregion path scene heq => ?_)
  cases heq
  exact ⟨htemplates ▸ List.mem_map_of_mem hregion, rfl⟩

/-- What a tag executes after its view are files of the wrap that it asks for. -/
theorem added_surrounds {t : Tag} {a : Run σ} (hv : r.resolveSeeded a.ctx.seeds t = .ok v) :
    let shown := exec (r.prepare v t >>= fun _ => r.renderView v) a
    shown.2.Added (r.Surrounds t shown.2.ctx shown.1) (exec (r.renderTag t) a).2 := by
  dsimp only
  rw [exec_renderTag_of_resolve r hv]
  rcases hshown : exec (r.prepare v t >>= fun _ => r.renderView v) a with ⟨e | content, b⟩
  · rw [exec_bind_error hshown]
    exact .none rfl
  · rw [exec_bind_ok hshown]
    refine (adds_surround r fun w _ hw region hregion => ?_).bind fun output c _ => adds_deliver r (fun _ _ => nofun) t output c
    intro path scene heq
    cases heq
    exact ⟨w, content, hw, rfl, List.mem_map_of_mem hregion, rfl⟩

/-- A tag that stands for a wrap, whatever the listener answers. The wrap is prepared without fail, and the listener is told its
parameters with the attributes of the tag over them. It gives the texts of its header, its body and its footer, all of which see
the parameters of the wrap itself. So they see the attributes over these exactly if the attributes say nothing new, and parameters
that the listener answers only if it answers those of the wrap, unless there is no file. What is executed after that until the end
of the turn are files of the wrap that the tag asks for around this content. -/
theorem shown_wrap_iff (hscheme : v.scheme = .wrap) {t : Tag} {a : Run σ} (hv : r.resolveSeeded a.ctx.seeds t = .ok v) :
    let told := wrapPayload v t a.ctx
    let shown := exec (r.prepare v t >>= fun _ => r.renderView v) a
    (∃ b, exec (r.prepare v t) a = (.ok (), b) ∧ b.recorded = .fired .beforeRenderView told :: a.recorded ∧
        (r.hasAnyRegion v Region.ofWrap = true → shown.1 =
          joined (Region.ofWrap.map fun region => r.regionText v region (v.wrapScene b.ctx.renderedView b.ctx.runtime)))) ∧
      (∃ merged, told.parameters = some merged ∧ Keyed.Layered [t.texts] v.parameters merged) ∧
      a.Added (ShowsOwn v) shown.2 ∧
      (a.Added (Moment.Sees (Keyed.Layered [t.texts] v.parameters)) shown.2 ↔
        r.hasAnyRegion v Region.ofWrap = false ∨
          ∀ key value, Keyed.highest? [t.texts] key = some value → v.parameters.get? key = some value) ∧
      (∀ parameters, (r.listener a.listener .beforeRenderView told).1.parameters = some parameters →
        (a.Added (Moment.Sees (· = parameters)) shown.2 ↔
          r.hasAnyRegion v Region.ofWrap = false ∨ v.parameters = parameters)) ∧
      shown.2.Added (r.Surrounds t shown.2.ctx shown.1) (exec (r.renderTag t) a).2 := by
  intro told shown
  have hmerged : Keyed.Layered [t.texts] v.parameters (Keyed.extend v.parameters t.texts) := (Keyed.layered_nil _).extend _
  refine ⟨?_, ⟨_, rfl, hmerged⟩, added_wrap_own r hscheme t a, ?_, fun _ _ => added_wrap_iff r hscheme t a, added_surrounds r hv⟩
  · obtain ⟨b, hb, hrecorded⟩ := exec_prepare_wrap r hscheme t a
    exact ⟨b, hb, hrecorded, fun hfile => text_wrap r hscheme hfile hb⟩
  · rw [← Keyed.layered_self_iff]
    exact added_wrap_iff r hscheme t a

/-- A wrap with a tone of its own. -/
def tonedCard : View :=
  { View.conventional .wrap "card" with parameters := [("tone", .text "cool")] }

/-- A tag that stands for the wrap and asks for another tone. -/
def warmCard : Tag :=
  { kind := "wrap", name := "card", attributes := [("tone", "warm")], raw := "<include type=wrap name=card tone=warm />" }

/-- A renderer of a document with the tag for the wrap, whose one file shows the tone. -/
def toned (listener : Listener Unit) : Renderer Unit where
  resolve := Keyed.get? (Catalog.insert [] tonedCard)
  hasTemplate path := path ∈ ["theme/default.tera", "wrap/card/body.tera"]
  execute path scene :=
    .ok (if path = "theme/default.tera" then warmCard.raw else ((Keyed.get? scene.parameters "tone").bind Data.text?).getD "")
  listener := listener

theorem not_layered_tonedCard : ¬ Keyed.Layered [warmCard.texts] tonedCard.parameters tonedCard.parameters := fun h =>
  absurd (Data.text.inj (Option.some.inj (h.value "tone"))) (by decide)

/-- `shown_wrap_iff` of a listener that answers a third tone. The wrap is shown neither that nor the one of the tag. -/
theorem shown_wrap_iff_answered :
    let r := toned fun _ _ _ => ({ parameters := some [("tone", .text "hot")] }, ())
    let a : Run Unit := { ctx := {}, listener := () }
    let shown := exec (r.prepare tonedCard warmCard >>= fun _ => r.renderView tonedCard) a
    tonedCard.scheme = .wrap ∧ r.resolveSeeded a.ctx.seeds warmCard = .ok tonedCard ∧ a.Added (ShowsOwn tonedCard) shown.2 ∧
      ¬ a.Added (Moment.Sees (Keyed.Layered [warmCard.texts] tonedCard.parameters)) shown.2 ∧
      ¬ a.Added (Moment.Sees (· = [("tone", .text "hot")])) shown.2 := by
  intro r a shown
  have hfile : r.hasAnyRegion tonedCard Region.ofWrap = true := by decide +kernel
  obtain ⟨-, -, hown, hlayered, hanswered, -⟩ := shown_wrap_iff r (v := tonedCard) rfl (t := warmCard) (a := a) rfl
  refine ⟨rfl, rfl, hown, fun h => ?_, fun h => ?_⟩
  · rcases hlayered.mp h with hnone | hsame
    · rw [hfile] at hnone
      cases hnone
    · exact not_layered_tonedCard (Keyed.layered_self_iff.mpr hsame)
  · rcases (hanswered _ rfl).mp h with hnone | hsame
    · rw [hfile] at hnone
      cases hnone
    · exact absurd (Data.text.inj (Option.some.inj (congrArg (Keyed.get? · "tone") hsame))) (by decide)

/-- The tag in a document, under a listener that changes nothing: the wrap is not shown the attributes of the tag over its own
parameters. -/
theorem shown_wrap_not_layered :
    let r := toned .silent
    let root := View.conventional .theme "default"
    (r.render root {} ()).1 = .ok "cool" ∧
      ∃ u ∈ r.bodyTurns root (r.initial {} ()), u.tag = warmCard ∧ r.resolveSeeded u.found.ctx.seeds u.tag = .ok tonedCard ∧
        ¬ u.found.Added (Moment.Sees (Keyed.Layered [u.tag.texts] tonedCard.parameters))
          (exec (r.prepare tonedCard u.tag >>= fun _ => r.renderView tonedCard) u.found).2 := by
  intro r root
  refine ⟨eq_ok_of_toOption (by decide +kernel), ?_⟩
  have hmem : warmCard ∈ (r.bodyTurns root (r.initial {} ())).map Turn.tag := by decide +kernel
  obtain ⟨u, hu, htag⟩ := List.mem_map.mp hmem
  refine ⟨u, hu, htag, ?_, ?_⟩
  · rw [htag]
    rfl
  · have hfile : r.hasAnyRegion tonedCard Region.ofWrap = true := by decide +kernel
    rw [htag, added_wrap_iff r rfl warmCard u.found, hfile]
    rintro (hnone | hsame)
    · cases hnone
    · exact not_layered_tonedCard hsame

end Renderer

end Folio
