import Folio.Proofs.Layers
import Folio.Proofs.Seeding
import Folio.Proofs.Trace

/-!
# The scheme that was asked for

Whatever is put into a catalog stands under its own reference (`Reached.kept`), be its name as it may, and a reference tells
the scheme. So whoever asks a catalog by scheme and name is answered with a view of that scheme: a lookup, the seeds of a route,
a tag with or without a name, and a wrap target. A document therefore executes nothing but the template of its root and those of
views of the schemes that its tags ask for (`render_keeps_schemes`).
-/

namespace Folio

namespace Catalog

/-- Every view is kept under its reference. -/
def Kept (c : Catalog) : Prop :=
  ∀ key v, Keyed.get? c key = some v → key = v.reference

/-- The catalogs that can be reached: from nothing, by inserting any views, by discovering the views of some schemes and by
declaring views, up to the first that cannot be declared. -/
inductive Reached : Catalog → Prop where
  | empty : Reached []
  | insert {c : Catalog} (v : View) : Reached c → Reached (c.insert v)
  | discover {c : Catalog} {f : Files Id} {viewsDir : String} {schemes : List Scheme} {count : Nat} {found : Catalog × Nat} :
      Reached c → (Site.discoverAll f viewsDir schemes (c, count)).run = .ok found → Reached found.1
  | declare {c : Catalog} (entries : List ViewEntry) : Reached c → Reached (c.declareAll entries).1

variable {c : Catalog} {scheme : Scheme} {name : String} {v : View}

/-- What is built can be reached, and so the wraps that are always there and the catalog of a site. -/
theorem Built.reached (h : Built c) : Reached c := by
  induction h with
  | empty => exact .empty
  | insert _ _ ih => exact ih.insert _
  | discover _ hfound ih => exact ih.discover hfound
  | declare entries _ ih => exact ih.declare entries

theorem Kept.insert (h : c.Kept) (v : View) : (c.insert v).Kept := by
  intro key w hw
  unfold Catalog.insert at hw
  rw [Keyed.get?_insert] at hw
  split at hw
  · rename_i hkey
    rw [← Option.some.inj hw]
    exact hkey
  · exact h key w hw

/-- A declaration is laid over a view of its own reference. -/
theorem Kept.reference_base (h : c.Kept) (e : ViewEntry) : (base (Keyed.get? c e.reference) e).reference = e.reference := by
  unfold base
  cases hold : Keyed.get? c e.reference with
  | none =>
    unfold View.conventional View.make View.reference ViewEntry.reference declaredName
    dsimp only [Option.getD_none]
    rw [Text.lower_lower]
  | some v => exact (h _ v hold).symm

theorem Kept.declared (h : c.Kept) (e : ViewEntry) : (c.declared e).Kept := by
  have hinsert := h.insert (overlay (base (Keyed.get? c e.reference) e) e)
  have hreference : (overlay (base (Keyed.get? c e.reference) e) e).reference = e.reference := h.reference_base e
  unfold Catalog.insert at hinsert
  rw [hreference] at hinsert
  exact hinsert

theorem Kept.declareAll (h : c.Kept) (entries : List ViewEntry) : (c.declareAll entries).1.Kept := by
  fun_induction Catalog.declareAll c entries with
  | case1 => exact h
  | case2 c e rest c' hc ih =>
    refine ih ?_
    cases he : usableName (declaredName e) with
    | true =>
      rw [declare_of_usable he] at hc
      rw [← Except.ok.inj hc]
      exact h.declared e
    | false =>
      rw [declare_of_unusable he] at hc
      cases hc
  | case3 => exact h

/-- In a catalog that can be reached every view is kept under its reference. -/
theorem Reached.kept (h : Reached c) : c.Kept := by
  induction h with
  | empty => exact fun _ _ hv => by cases hv
  | insert v _ ih => exact ih.insert v
  | discover _ hfound ih =>
    obtain ⟨views, hviews, -⟩ := Site.exists_views_of_discoverAll hfound
    rw [hviews]
    exact List.foldlRecOn views Catalog.insert (motive := Kept) ih fun _ hc v _ => hc.insert v
  | declare entries _ ih => exact ih.declareAll entries

/-- A reference is answered with a view of its scheme. -/
theorem Kept.scheme_eq (h : c.Kept) (hv : Keyed.get? c (reference scheme name) = some v) : v.scheme = scheme :=
  (reference_eq_iff.mp (h _ v hv)).1.symm

end Catalog

/-- Every seed is of the scheme that it is kept for. -/
def Seeds.Kept (seeds : Seeds) : Prop :=
  ∀ scheme v, seeds.get? scheme = some v → v.scheme = scheme

namespace Renderer

open Rendering Catalog

variable {σ : Type} {r : Renderer σ} {c : Catalog} {scheme : Scheme} {name target : String} {v : View} {seeds : Seeds}
  {route : Route} {t : Tag}

/-! ## Resolving -/

/-- Whatever is looked up is of the scheme that was asked for. -/
def KeepsSchemes (r : Renderer σ) : Prop :=
  ∀ scheme name v, r.lookup scheme name = .ok v → v.scheme = scheme

theorem keepsSchemes_of_kept (h : c.Kept) (hr : r.resolve = Keyed.get? c) : r.KeepsSchemes := by
  intro scheme name v hv
  unfold lookup at hv
  dsimp only at hv
  rw [hr] at hv
  split at hv
  · rename_i w hw
    rw [← Except.ok.inj hv]
    exact h.scheme_eq hw
  · cases hv

namespace KeepsSchemes

variable (h : r.KeepsSchemes)
include h

theorem seedsOf (route : Route) : (r.seedsOf route).Kept := by
  intro scheme v hv
  have hscheme : scheme ≠ .theme := fun heq => by
    rw [heq] at hv
    cases hv
  exact h _ _ v ((seedsOf_get?_eq_some_iff hscheme).mp hv).lookup

theorem seededOr (hseeds : seeds.Kept) (hv : r.seededOr seeds scheme name = .ok v) : v.scheme = scheme := by
  unfold Renderer.seededOr at hv
  split at hv
  · rename_i w hw
    rw [← Except.ok.inj hv]
    exact hseeds scheme w hw
  · exact h _ _ v hv

theorem resolveSeeded (hseeds : seeds.Kept) (hv : r.resolveSeeded seeds t = .ok v) : v.scheme = .ofKind t.kind := by
  by_cases hname : t.name = ""
  · rw [resolveSeeded_eq_seededOr hname] at hv
    exact h.seededOr hseeds hv
  · unfold Renderer.resolveSeeded at hv
    rw [if_neg (by simpa using hname)] at hv
    exact h _ _ v hv

theorem resolveWrap (hseeds : seeds.Kept) (hv : r.resolveWrap seeds target = .ok v) : v.scheme = .wrap := by
  by_cases hdefault : Text.eqIgnoringCase target defaultWrap = true
  · rw [resolveWrap_eq_seededOr hdefault] at hv
    exact h.seededOr hseeds hv
  · unfold Renderer.resolveWrap at hv
    rw [if_neg hdefault] at hv
    exact h _ _ v hv

/-- The views that a tag asks for are of the scheme of its kind, and its wrap is one. -/
theorem asks (hseeds : seeds.Kept) (hv : r.Asks seeds t v) :
    v.scheme = .ofKind t.kind ∨ (t.wrap ≠ "" ∧ v.scheme = .wrap) := by
  cases hv with
  | target hv => exact Or.inl (h.resolveSeeded hseeds hv)
  | wrap hwrap hv => exact Or.inr ⟨hwrap, h.resolveWrap hseeds hv⟩

end KeepsSchemes

/-! ## Documents -/

/-- In a catalog that can be reached every view is kept under its reference. So a theme is found among the themes, and any other
view among those of the scheme that was asked for. Throughout the rendering of a document over the catalog, the seeds are of the
schemes that they are kept for, a tag is resolved to a view of the scheme of its kind, which is never a theme, and a wrap target
to a wrap. What the document executes is the template of its root, or one of a view that a tag asked for. -/
theorem render_keeps_schemes (r : Renderer σ) {c : Catalog} (hc : Reached c) (hr : r.resolve = Keyed.get? c) :
    c.Kept ∧
    (∀ name v, c.theme name = .ok v → v.scheme = .theme) ∧
    (∀ name v, r.lookupTheme name = .ok v → v.scheme = .theme) ∧
    (∀ scheme name v, r.lookup scheme name = .ok v → v.scheme = scheme) ∧
    ∀ root runtime listener,
      let start := r.initial runtime listener
      (∀ u ∈ r.bodyTurns root start ++ r.headTurns root start,
        (∀ scheme v, u.found.ctx.seeds.get? scheme = some v → v.scheme = scheme) ∧
        (∀ v, r.resolveSeeded u.found.ctx.seeds u.tag = .ok v → v.scheme = .ofKind u.tag.kind ∧ v.scheme ≠ .theme) ∧
        ∀ target v, r.resolveWrap u.found.ctx.seeds target = .ok v → v.scheme = .wrap) ∧
      ∀ path scene, .executed path scene ∈ (r.render root runtime listener).2.recorded →
        path = root.includePath ∨ ∃ u ∈ r.bodyTurns root start ++ r.headTurns root start, ∃ v,
          r.Asks u.found.ctx.seeds u.tag v ∧ (v.scheme = .ofKind u.tag.kind ∨ (u.tag.wrap ≠ "" ∧ v.scheme = .wrap)) ∧
            path ∈ v.templates := by
  have hkept := hc.kept
  have hkeeps := keepsSchemes_of_kept hkept hr
  refine ⟨hkept, ?_, fun name v hv => hkeeps .theme name v hv, hkeeps, ?_⟩
  · intro name v hv
    unfold Catalog.theme at hv
    split at hv
    · rename_i w hw
      rw [← Except.ok.inj hv]
      exact hkept.scheme_eq hw
    · cases hv
  intro root runtime listener start
  have hseeds {u : Turn σ} (hu : u ∈ r.bodyTurns root start ++ r.headTurns root start) : u.found.ctx.seeds.Kept := by
    rw [seeds_of_mem_documentTurns hu]
    exact hkeeps.seedsOf runtime.route
  refine ⟨fun u hu => ⟨hseeds hu, fun v hv => ?_, fun target v hv => hkeeps.resolveWrap (hseeds hu) hv⟩, ?_⟩
  · have hscheme := hkeeps.resolveSeeded (hseeds hu) hv
    exact ⟨hscheme, hscheme ▸ Scheme.ofKind_ne_theme _⟩
  -- whatever is recorded is an event, the root, or asked for by a turn
  have hadds : Adds (fun m => ∀ path scene, m = .executed path scene → path = root.includePath ∨
      ∃ u ∈ r.bodyTurns root start ++ r.headTurns root start, ∃ v, r.Asks u.found.ctx.seeds u.tag v ∧ path ∈ v.templates)
      (r.renderFrom root) start := by
    refine adds_renderFrom (fun _ _ => nofun) ?_ fun u hu => ?_
    · intro _ path scene heq
      rw [Moment.executed.injEq] at heq
      exact Or.inl heq.1.symm
    · have hturn := adds_renderTag r u.tag u.found fun w hw => hkeeps.resolveWrap (hseeds hu) hw
      exact Run.Added.mono hturn fun m hm path scene heq => Or.inr ⟨u, hu, hm path scene heq⟩
  obtain ⟨added, hrecorded, hall⟩ := hadds
  intro path scene hmem
  have hadded : Moment.executed path scene ∈ added := by
    change Moment.executed path scene ∈ (exec (r.renderFrom root) start).2.recorded at hmem
    rw [hrecorded, List.mem_append] at hmem
    exact hmem.resolve_right List.not_mem_nil
  rcases hall _ hadded path scene rfl with hroot | ⟨u, hu, v, hv, hpath⟩
  · exact Or.inl hroot
  · exact Or.inr ⟨u, hu, v, hv, hkeeps.asks (hseeds hu) hv, hpath⟩

/-- A catalog with a view of the same name in every scheme, and a template that is named like the reference of the theme. -/
def crossing : Catalog :=
  [.conventional .theme "a", .conventional .page "a", .conventional .template "a", .conventional .wrap "a",
    { scheme := .template, name := "Theme:///App//View//Theme//A", includePath := "template/odd" }].foldl insert []

theorem reached_crossing : Reached crossing :=
  List.foldlRecOn _ Catalog.insert (motive := Reached) .empty fun _ hc v _ => hc.insert v

/-- A renderer over the catalog, whose templates give their paths around what they are given. -/
def crossed : Renderer Unit where
  resolve := Keyed.get? crossing
  hasTemplate path := path ∈ ["theme/a.tera", "theme/main.tera", "template/a/custom.tera", "wrap/a/body.tera"]
  execute path scene :=
    .ok (if path = "theme/main.tera" then "<include theme=a wrap=default />"
      else path ++ "(" ++ ((Keyed.get? scene.row "content").bind Data.text?).getD "" ++ ")")
  listener := .silent

/-- `render_keeps_schemes` of a document whose tag asks for the kind and the name of a theme. -/
theorem render_keeps_schemes_crossed :
    let root := View.conventional .theme "main"
    let runtime : Runtime := { route := { wrap := "a" } }
    let start := crossed.initial runtime ()
    (crossed.render root runtime ()).1 = .ok "wrap/a/body.tera(template/a/custom.tera())" ∧
      ∃ u ∈ crossed.bodyTurns root start ++ crossed.headTurns root start, u.tag.kind = "theme" ∧ u.tag.name = "a" ∧
        ∃ v w, crossed.resolveSeeded u.found.ctx.seeds u.tag = .ok v ∧ v.scheme = .template ∧
          crossed.resolveWrap u.found.ctx.seeds u.tag.wrap = .ok w ∧ w.scheme = .wrap := by
  intro root runtime start
  have hpage : (crossed.render root runtime ()).1 = .ok "wrap/a/body.tera(template/a/custom.tera())" :=
    eq_ok_of_toOption (by decide +kernel)
  refine ⟨hpage, ?_⟩
  have hmem : ("theme", "a", "default") ∈ (crossed.bodyTurns root start ++ crossed.headTurns root start).map fun u =>
      (u.tag.kind, u.tag.name, u.tag.wrap) := by decide +kernel
  obtain ⟨u, hu, heq⟩ := List.mem_map.mp hmem
  simp only [Prod.mk.injEq] at heq
  obtain ⟨hkind, hname, hwrap⟩ := heq
  obtain ⟨-, -, -, -, hdocument⟩ := render_keeps_schemes crossed reached_crossing rfl
  obtain ⟨-, htarget, hwraps⟩ := (hdocument root runtime ()).1 u hu
  obtain ⟨c, hc⟩ := renderTag_of_mem_documentTurns (Prod.ext hpage rfl) hu
  obtain ⟨output, d, houtput, -⟩ := ok_of_exec_bind hc
  obtain ⟨content, b, v, hv, -⟩ := exists_wraps houtput
  obtain ⟨w, hseeded⟩ : ∃ w, (crossed.seedsOf runtime.route).wrap = some w :=
    Option.isSome_iff_exists.mp (by decide +kernel)
  have hw : crossed.resolveWrap u.found.ctx.seeds u.tag.wrap = .ok w := by
    unfold resolveWrap
    rw [hwrap, if_pos (by decide +kernel), seeds_of_mem_documentTurns hu, hseeded]
  refine ⟨u, hu, hkind, hname, v, w, hv, ?_, hw, hwraps _ w hw⟩
  rw [(htarget v hv).1, hkind]
  decide +kernel

end Renderer

end Folio
