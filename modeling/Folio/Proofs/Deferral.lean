import Folio.Proofs.Lookup
import Folio.Proofs.Turns

/-!
# Deferred tags

The words of `Tag.exclusions` defer tags to the second pass of a document. No turn of the first pass has a deferred tag, and
the page at its end has no other tags; the page at the end of the second pass has none (`render_deferral`). Both ends are the
same fact of a pass, which goes on until no wanted tag is left (`PassRun.parse_eq_nil`).
-/

namespace Folio

namespace Tag

/-- The words that defer tags are the entries of the settings, trimmed and in lower case, that are not blank. -/
theorem mem_exclusions_iff {entries : List String} {word : String} :
    word ∈ exclusions entries ↔ word ≠ "" ∧ ∃ entry ∈ entries, Text.lower (Text.trim entry) = word := by
  unfold exclusions
  dsimp only
  rw [Keyed.mem_keys_ofEntries, List.map_map, List.mem_map]
  constructor
  · rintro ⟨w, hw, rfl⟩
    obtain ⟨hmem, hne⟩ := List.mem_filter.mp hw
    refine ⟨?_, List.mem_map.mp hmem⟩
    intro hempty
    rw [show w = "" from hempty] at hne
    cases hne
  · rintro ⟨hne, hentry⟩
    refine ⟨word, List.mem_filter.mpr ⟨List.mem_map.mpr hentry, ?_⟩, rfl⟩
    simpa using hne

/-- Without excluded words all tags are wanted. -/
theorem parse_nil (document : String) : parse document [] = parseAll document := by
  unfold parse exclude
  rw [List.filter_eq_self]
  intro t _
  rfl

/-- A document without wanted tags has only tags that are excluded. -/
theorem parse_eq_nil_iff {document : String} {excluded : List String} :
    parse document excluded = [] ↔ ∀ t ∈ parseAll document, t.kind ∈ excluded ∨ t.name ∈ excluded := by
  unfold parse exclude
  rw [List.filter_eq_nil_iff]
  refine forall₂_congr fun t _ => ?_
  simp only [Bool.not_eq_true, Bool.and_eq_false_iff, Bool.not_eq_false', List.contains_iff_mem]

end Tag

namespace Renderer

open Rendering

variable {σ : Type} {r : Renderer σ} {root : View} {a b : Run σ}

/-! ## The ends of the passes -/

/-- A pass that ends well leaves no wanted tag in the page. -/
theorem PassRun.parse_eq_nil {excluded : List String} {n : Nat} (h : r.PassRun excluded n a (.ok ()) b) :
    Tag.parse b.ctx.renderedPage excluded = [] := by
  generalize hres : (Except.ok () : Except RenderError Unit) = res at h
  induction h with
  | clean hp => exact hp
  | failed => cases hres
  | broken => cases hres
  | again _ _ _ ih => exact ih hres

/-- A document that is rendered is the page at the end of the second pass, but for what the listener makes of it at the last
event. -/
theorem RenderRun.page_eq {n : Nat} {page : String} (h : r.RenderRun root n a (.ok page) b) :
    ∃ k d y, r.PassRun [] k d (.ok ()) y ∧
      page = (r.listener y.listener .afterRender y.ctx.pagePayload).1.renderedPage.getD y.ctx.renderedPage := by
  cases h with
  | @done n m a b c d y z hopen hbody hfire hhead hlast =>
    refine ⟨m, d, y, hhead, ?_⟩
    rw [exec_firePage, exec_fire, Prod.mk.injEq] at hlast
    rw [← hlast.2]
    exact Context.renderedPage_apply _ _

/-! ## The turns of the two passes -/

/-- The words that are deferred when the page is open are those of the settings. -/
theorem excluded_openPage {res : Except RenderError Unit} {b : Run σ} (runtime : Runtime) (listener : σ)
    (h : exec (r.openPage root) (r.initial runtime listener) = (res, b)) :
    b.ctx.excluded = Tag.exclusions r.settings.headTokens :=
  ((local_openPage r root).level_of_exec h).excluded

/-- No turn of the first pass has a deferred tag. -/
theorem not_deferred_of_mem_bodyTurns {runtime : Runtime} {listener : σ} {u : Turn σ}
    (hu : u ∈ r.bodyTurns root (r.initial runtime listener)) :
    u.tag.InLowerCase ∧ u.tag.kind ∉ Tag.exclusions r.settings.headTokens ∧
      u.tag.name ∉ Tag.exclusions r.settings.headTokens := by
  unfold bodyTurns at hu
  split at hu
  · rename_i b hopen
    rw [← excluded_openPage runtime listener hopen]
    exact wanted_of_mem_passTurns hu
  · cases hu

/-- Every turn of the second pass comes after the event between the passes. -/
theorem fired_of_mem_headTurns {u : Turn σ} (hu : u ∈ r.headTurns root a) : .beforeParseHead ∈ u.found.fired := by
  unfold headTurns at hu
  split at hu
  · rename_i d hbody
    obtain ⟨_, c, -, -, hfire⟩ := ok_of_renderBody hbody
    have hmem : (.beforeParseHead, c.ctx.pagePayload) ∈ d.events := (mem_events_firePage hfire).mpr (Or.inr rfl)
    exact List.mem_map.mpr ⟨_, ((led_pass r _ _ d).grown hu).mem_events hmem, rfl⟩
  · cases hu

/-! ## Documents -/

/-- The passes of a rendering do nothing but what their turns do, and no turn before the event between them has a tag with a
deferred kind or name. At that event all tags of the page are deferred ones. At the last event the page has no tags, so that a
document has none unless its listener puts them there at that event. -/
theorem render_deferral (r : Renderer σ) (root : View) (runtime : Runtime) (listener : σ) :
    let deferred := Tag.exclusions r.settings.headTokens
    let ended := r.render root runtime listener
    let start := r.initial runtime listener
    (∀ word, word ∈ deferred ↔ word ≠ "" ∧ ∃ entry ∈ r.settings.headTokens, Text.lower (Text.trim entry) = word) ∧
      (∀ b, exec (r.openPage root) start = (.ok (), b) →
        ∃ res c, exec (r.pass deferred (r.remaining b.ctx)) b = (res, c) ∧ r.Led b (r.bodyTurns root start) res c) ∧
      (∀ b, exec (r.renderBody root) start = (.ok (), b) →
        ∃ res c, exec (r.pass [] (r.remaining b.ctx)) b = (res, c) ∧ r.Led b (r.headTurns root start) res c) ∧
      (∀ u ∈ r.bodyTurns root start ++ r.headTurns root start, .beforeParseHead ∉ u.found.fired →
        Text.lower u.tag.kind ∉ deferred ∧ Text.lower u.tag.name ∉ deferred) ∧
      (∀ payload, (.beforeParseHead, payload) ∈ ended.2.events → ∃ page, payload.renderedPage = some page ∧
        Tag.parse page deferred = [] ∧ ∀ t ∈ Tag.parseAll page, t.kind ∈ deferred ∨ t.name ∈ deferred) ∧
      (∀ payload, (.afterRender, payload) ∈ ended.2.events → ∃ page, payload.renderedPage = some page ∧
        Tag.parse page [] = []) ∧
      ((∀ s payload, (r.listener s .afterRender payload).1.renderedPage = none) →
        ∀ page, ended.1 = .ok page → Tag.parseAll page = []) := by
  intro deferred ended start
  obtain ⟨n, hrun⟩ := renderRun_render r root runtime listener
  have hnew : start.events = [] := rfl
  refine ⟨fun word => Tag.mem_exclusions_iff, ?_, fun b hbody => led_headTurns hbody, ?_, ?_, ?_, ?_⟩
  · intro b hopen
    have hled := led_bodyTurns hopen
    rw [excluded_openPage runtime listener hopen] at hled
    exact hled
  · intro u hu hbefore
    rcases List.mem_append.mp hu with hu | hu
    · obtain ⟨⟨hkind, hname⟩, hwanted⟩ := not_deferred_of_mem_bodyTurns hu
      rw [hkind, hname]
      exact hwanted
    · exact absurd (fired_of_mem_headTurns hu) hbefore
  · intro payload hmem
    obtain ⟨k, c, d, hopen, hbody, rfl⟩ := hrun.payload_of_beforeParseHead hnew hmem
    have hclean := hbody.parse_eq_nil
    rw [excluded_openPage runtime listener hopen] at hclean
    exact ⟨d.ctx.renderedPage, rfl, hclean, Tag.parse_eq_nil_iff.mp hclean⟩
  · intro payload hmem
    obtain ⟨k, d, y, hhead, rfl⟩ := hrun.payload_of_afterRender hnew hmem
    exact ⟨y.ctx.renderedPage, rfl, hhead.parse_eq_nil⟩
  · intro hkeeps page hpage
    rw [show (r.render root runtime listener).1 = .ok page from hpage] at hrun
    obtain ⟨k, d, y, hhead, rfl⟩ := hrun.page_eq
    rw [hkeeps, Option.getD_none, ← Tag.parse_nil]
    exact hhead.parse_eq_nil

/-- A renderer of one page in every theme, which is asked for once more in the head. -/
def deferring : Renderer Unit where
  resolve _ := some (.conventional .page "a")
  hasTemplate _ := true
  execute path _ := .ok (if path = "theme/default.tera" then "<include type=head name=t /><include page=a />" else "A")
  listener := Listener.silent

/-- `render_deferral` of a page with a deferred tag. -/
theorem render_deferral_head :
    (deferring.bodyTurns (.conventional .theme "default") (deferring.initial {} ())).map (fun u => u.tag.kind) = ["page"] ∧
      (deferring.headTurns (.conventional .theme "default") (deferring.initial {} ())).map (fun u => u.tag.kind) = ["head"] ∧
      (∃ payload, (.beforeParseHead, payload) ∈ (deferring.render (.conventional .theme "default") {} ()).2.events ∧
        payload.renderedPage = some "<include type=head name=t />A" ∧
        Tag.parse "<include type=head name=t />A" (Tag.exclusions deferring.settings.headTokens) = []) ∧
      (deferring.render (.conventional .theme "default") {} ()).1 = .ok "AA" ∧ Tag.parseAll "AA" = [] := by
  have hpage : (deferring.render (.conventional .theme "default") {} ()).1 = .ok "AA" :=
    eq_ok_of_toOption (by decide +kernel)
  have hmem : (Event.beforeParseHead, some "<include type=head name=t />A") ∈
      (deferring.render (.conventional .theme "default") {} ()).2.events.map fun x => (x.1, x.2.renderedPage) := by
    decide +kernel
  obtain ⟨⟨event, payload⟩, hevent, heq⟩ := List.mem_map.mp hmem
  obtain ⟨rfl, hrendered⟩ := Prod.mk.inj heq
  obtain ⟨-, -, -, -, hbetween, -, hlast⟩ := render_deferral deferring (.conventional .theme "default") {} ()
  obtain ⟨page, hsome, hclean, -⟩ := hbetween payload hevent
  obtain rfl : page = "<include type=head name=t />A" := Option.some.inj (hsome.symm.trans hrendered)
  exact ⟨by decide +kernel, by decide +kernel, ⟨payload, hevent, hrendered, hclean⟩, hpage, hlast (fun _ _ => rfl) "AA" hpage⟩

end Renderer

end Folio
