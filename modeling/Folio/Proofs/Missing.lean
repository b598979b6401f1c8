import Folio.Proofs.Lookup
import Folio.Proofs.Trace

/-!
# Views without files

When a view is rendered from a library (`Renderer.withLibrary`), it is not found exactly if the library has none of the
templates that the view may execute (`View.Missing`). That is settled before anything else is done, so then nothing has
happened: no event, no template, no change (`exec_renderView_missing`). If the library has one of them, no step of the rendering
comes upon a path that is not found, whatever the listener answers (`Finds`, one lemma a step).
-/

namespace Folio

/-- The library has no template that rendering the view may execute. -/
def View.Missing (v : View) (lib : Library) : Prop :=
  ∀ path ∈ v.templates, templateName path ∉ lib.names

namespace Rendering

variable {σ α β : Type}

/-- From no state does the step end with a path that is not found. -/
def Finds (x : Rendering σ α) : Prop :=
  ∀ a path, (exec x a).1 ≠ .error (.notFound path)

namespace Finds

theorem ret (v : α) : Finds (pure v : Rendering σ α) := fun _ _ => nofun

theorem change (f : Context → Context) : Finds (Renderer.change f : Rendering σ Unit) := fun _ _ => nofun

theorem fire (r : Renderer σ) (event : Event) (payload : Payload) : Finds (r.fire event payload) := fun _ _ => nofun

/-- A composed step comes upon no path that is not found if its parts do not. -/
theorem bind {x : Rendering σ α} {f : α → Rendering σ β} (hx : Finds x) (hf : ∀ v, Finds (f v)) : Finds (x >>= f) := by
  intro a path
  rcases hxa : exec x a with ⟨e | v, b⟩
  · have hfirst := hx a path
    rw [hxa] at hfirst
    rw [exec_bind_error hxa]
    exact fun h => hfirst (congrArg Except.error (Except.error.inj h))
  · rw [exec_bind_ok hxa]
    exact hf v b path

theorem context {f : Context → Rendering σ α} (hf : ∀ ctx, Finds (f ctx)) : Finds (Renderer.context >>= f) :=
  bind (fun _ _ => nofun) hf

end Finds

end Rendering

namespace Renderer

open Rendering

variable {σ : Type}

/-- The renderer with the templates of a library in the place of its own. -/
def withLibrary (r : Renderer σ) (lib : Library) : Renderer σ :=
  { r with hasTemplate := lib.has, execute := lib.execute }

variable (r : Renderer σ) (lib : Library) (v : View)

/-! ## The steps of a view that has files -/

/-- A template that the library has can fail, but it is found. -/
theorem finds_run {path : String} (h : lib.has path = true) (scene : Scene) : Finds ((r.withLibrary lib).run path scene) := by
  intro a path' hrun
  rw [exec_run] at hrun
  have hhas := (lib.execute_notFound_iff path scene).mp ⟨path', hrun⟩
  rw [h] at hhas
  cases hhas

theorem finds_appendRegion (region : Region) (row : Row) : Finds ((r.withLibrary lib).appendRegion v region row) := by
  unfold appendRegion
  dsimp only
  split
  · rename_i hhas
    exact .context fun _ => (finds_run r lib hhas _).bind fun _ => .change _
  · exact .ret _

theorem finds_renderStages (stages : List (Event × Region)) (row : Row) :
    Finds ((r.withLibrary lib).renderStages v stages row) := by
  induction stages generalizing row with
  | nil => exact .ret _
  | cons stage rest ih =>
    rw [renderStages_cons]
    have hfire : Finds ((r.withLibrary lib).fireRow stage.1 row) := .context fun _ => (Finds.fire _ _ _).bind fun _ => .ret _
    exact hfire.bind fun row => (finds_appendRegion r lib v stage.2 row).bind fun _ => ih row

theorem finds_renderRow (total index : Nat) (parity : String) (row : Row) :
    Finds ((r.withLibrary lib).renderRow v total index parity row) := by
  rw [renderRow_eq]
  exact (Finds.change _).bind fun _ => (finds_renderStages r lib v _ _).bind fun _ => .change _

theorem finds_renderRows (total index : Nat) (parity : String) (rows : List Row) :
    Finds ((r.withLibrary lib).renderRows v total index parity rows) := by
  induction rows generalizing index parity with
  | nil => exact .ret _
  | cons row rest ih => exact (finds_renderRow r lib v total index parity row).bind fun _ => ih (index + 1) (nextParity parity)

theorem finds_runRegions (scene : Scene) (regions : List Region) : Finds ((r.withLibrary lib).runRegions v scene regions) := by
  induction regions with
  | nil => exact .ret _
  | cons region rest ih =>
    unfold runRegions
    dsimp only
    split
    · rename_i hhas
      exact (finds_run r lib hhas scene).bind fun _ => ih.bind fun _ => .ret _
    · exact (Finds.ret _).bind fun _ => ih.bind fun _ => .ret _

/-! ## Views -/

/-- A view has a file for one of the regions exactly if the library has a template for one of them. -/
theorem hasAnyRegion_withLibrary (regions : List Region) :
    (r.withLibrary lib).hasAnyRegion v regions = true ↔ ∃ path ∈ regions.map (regionPath v), lib.has path = true := by
  unfold hasAnyRegion
  rw [List.any_eq_true]
  constructor
  · rintro ⟨region, hregion, hhas⟩
    exact ⟨_, List.mem_map_of_mem hregion, hhas⟩
  · rintro ⟨path, hpath, hhas⟩
    obtain ⟨region, hregion, rfl⟩ := List.mem_map.mp hpath
    exact ⟨region, hregion, hhas⟩

/-- A view of which the library has a template comes upon no path that is not found. -/
theorem finds_renderView (h : ∃ path ∈ v.templates, lib.has path = true) : Finds ((r.withLibrary lib).renderView v) := by
  have page (hpath : lib.has v.includePath = true) (row : Row) : Finds ((r.withLibrary lib).renderPage v row) := by
    unfold renderPage
    rw [show (r.withLibrary lib).hasTemplate v.includePath = true from hpath, if_pos rfl]
    exact .context fun _ => finds_run r lib hpath _
  unfold View.templates at h
  unfold renderView
  cases hscheme : v.scheme with
  | theme =>
    rw [hscheme] at h
    obtain ⟨path, hmem, hpath⟩ := h
    rw [List.mem_singleton.mp hmem] at hpath
    exact .context fun _ => page hpath _
  | page =>
    rw [hscheme] at h
    obtain ⟨path, hmem, hpath⟩ := h
    rw [List.mem_singleton.mp hmem] at hpath
    exact .context fun _ => page hpath _
  | template =>
    rw [hscheme] at h
    dsimp only
    unfold renderTemplate
    rw [(hasAnyRegion_withLibrary r lib v _).mpr h, Bool.not_true, if_neg Bool.false_ne_true]
    dsimp only
    split
    · rename_i hcustom
      exact .context fun _ => (finds_run r lib hcustom _).bind fun _ => (Finds.change _).bind fun _ => .ret _
    · exact (Finds.change _).bind fun _ => .context fun _ => (finds_renderRows r lib v _ _ _ _).bind fun _ =>
        .context fun _ => .ret _
  | wrap =>
    rw [hscheme] at h
    refine .context fun ctx => ?_
    unfold renderWrap
    rw [(hasAnyRegion_withLibrary r lib v _).mpr h, Bool.not_true, if_neg Bool.false_ne_true]
    exact .context fun _ => finds_runRegions r lib v _ _

/-- A view without files is not found, and nothing has happened. -/
theorem exec_renderView_missing (h : v.Missing lib) (a : Run σ) :
    exec ((r.withLibrary lib).renderView v) a = (.error (.notFound v.includePath), a) := by
  have missing {path : String} (hpath : path ∈ v.templates) : lib.has path = false :=
    (lib.has_eq_false_iff path).mpr (h path hpath)
  have page (hpath : lib.has v.includePath = false) (row : Row) :
      exec ((r.withLibrary lib).renderPage v row) a = (.error (.notFound v.includePath), a) := by
    unfold renderPage
    rw [show (r.withLibrary lib).hasTemplate v.includePath = false from hpath, if_neg Bool.false_ne_true]
    rfl
  have directory (regions : List Region) (hregions : ∀ path ∈ regions.map (regionPath v), lib.has path = false) :
      (r.withLibrary lib).hasAnyRegion v regions = false := by
    rw [Bool.eq_false_iff]
    intro hany
    obtain ⟨path, hmem, hpath⟩ := (hasAnyRegion_withLibrary r lib v regions).mp hany
    rw [hregions path hmem] at hpath
    cases hpath
  unfold View.templates at missing
  unfold renderView
  cases hscheme : v.scheme with
  | theme =>
    rw [hscheme] at missing
    exact (exec_bind_ok (exec_context a)).trans (page (missing List.mem_cons_self) _)
  | page =>
    rw [hscheme] at missing
    exact (exec_bind_ok (exec_context a)).trans (page (missing List.mem_cons_self) _)
  | template =>
    rw [hscheme] at missing
    dsimp only
    unfold renderTemplate
    rw [directory _ fun _ => missing]
    rfl
  | wrap =>
    rw [hscheme] at missing
    dsimp only
    rw [exec_bind_ok (exec_context a)]
    unfold renderWrap
    rw [directory _ fun _ => missing]
    rfl

/-- What a view that is rendered from a library does not find. It fails with a path that is not found exactly if the library has
none of its templates: not the file of a theme or a page, none of the four regions of a template, or none of the three of a wrap.
The path is then the one of the view itself, and the state is the one that it was: no event was fired, no template executed and
nothing changed. In every other case no row, no region and no answer of the listener leads to such a failure. -/
theorem renderView_notFound (a : Run σ) :
    (∀ path, (exec ((r.withLibrary lib).renderView v) a).1 = .error (.notFound path) ↔ path = v.includePath ∧ v.Missing lib) ∧
      ((∃ path, (exec ((r.withLibrary lib).renderView v) a).1 = .error (.notFound path)) →
        (exec ((r.withLibrary lib).renderView v) a).2 = a) := by
  by_cases hmissing : v.Missing lib
  · rw [exec_renderView_missing r lib v hmissing a]
    refine ⟨fun path => ?_, fun _ => rfl⟩
    rw [Except.error.injEq, RenderError.notFound.injEq, and_iff_left hmissing, eq_comm]
  · have hhas : ∃ path ∈ v.templates, lib.has path = true := by
      refine Classical.byContradiction fun hnone => hmissing fun path hpath hname => hnone ?_
      exact ⟨path, hpath, (lib.has_iff_mem_names path).mpr hname⟩
    have hfinds := finds_renderView r lib v hhas a
    refine ⟨fun path => ⟨fun h => absurd h (hfinds path), fun h => absurd h.2 hmissing⟩, ?_⟩
    rintro ⟨path, h⟩
    exact absurd h (hfinds path)

end Renderer

end Folio
