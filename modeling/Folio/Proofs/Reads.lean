import Folio.Cli.Run

/-!
# Reading leaves no trace

Files that answer in some state as other files do, and leave the state as it is (`Shows`), can be read in their place: whatever
is loaded from them is what is loaded from the others, and the state is the same afterwards (`Mirrors`). That goes for the
manifest, the catalog, the runtime and the templates of a site, and so for the document that is rendered from them
(`Shows.renderDocument`).
-/

namespace Folio

variable {σ α β ε : Type} {s : σ}

/-- In a state, a step gives what another one does, and leaves the state as it is. -/
def Mirrors (s : σ) (x : StateM σ α) (y : Id α) : Prop :=
  (x.run s).run = (y.run, s)

namespace Mirrors

variable {x : StateM σ α} {y : Id α}

theorem ret (v : α) : Mirrors s (pure v) (pure v) := rfl

theorem bind {f : α → StateM σ β} {g : α → Id β} (hx : Mirrors s x y) (hf : ∀ v, Mirrors s (f v) (g v)) :
    Mirrors s (x >>= f) (y >>= g) := by
  change ((f (x.run s).run.1).run (x.run s).run.2).run = ((g y.run).run, s)
  rw [hx]
  exact hf y.run

/-- A step that can fail goes on alike, or fails alike. -/
theorem bindExcept {x : ExceptT ε (StateM σ) α} {y : ExceptT ε Id α} {f : α → ExceptT ε (StateM σ) β}
    {g : α → ExceptT ε Id β} (hx : Mirrors s x.run y.run) (hf : ∀ v, Mirrors s (f v).run (g v).run) :
    Mirrors s (x >>= f).run (y >>= g).run := by
  rw [ExceptT.run_bind, ExceptT.run_bind]
  refine hx.bind fun v => ?_
  cases v with
  | error e => exact .ret _
  | ok v => exact hf v

theorem orFail {failure : ε → Cli.Failure} {x : StateM σ (Except ε α)} {y : Id (Except ε α)} (h : Mirrors s x y) :
    Mirrors s (Cli.orFail failure x).run (Cli.orFail failure y).run :=
  h.bind fun _ => .ret _

end Mirrors

/-- In a state, files answer as others do, and leave the state as it is. -/
structure Shows (s : σ) (f : Files (StateM σ)) (g : Files Id) : Prop where
  kind? : ∀ path, Mirrors s (f.kind? path) (g.kind? path)
  names : ∀ path, Mirrors s (f.names path) (g.names path)
  read : ∀ path, Mirrors s (f.read path) (g.read path)

namespace Shows

variable {f : Files (StateM σ)} {g : Files Id} (h : Shows s f g)
include h

theorem isDirectory (path : String) : Mirrors s (f.isDirectory path) (g.isDirectory path) :=
  (h.kind? path).bind fun _ => .ret _

theorem isFile (path : String) : Mirrors s (f.isFile path) (g.isFile path) :=
  (h.kind? path).bind fun _ => .ret _

theorem isThere (path : String) : Mirrors s (f.isThere path) (g.isThere path) :=
  (h.kind? path).bind fun _ => .ret _

theorem readText (path : String) : Mirrors s (f.readText path) (g.readText path) :=
  (h.read path).bind fun _ => .ret _

theorem sortedNames (path : String) : Mirrors s (f.sortedNames path) (g.sortedNames path) :=
  (h.names path).bind fun _ => .ret _

/-! ## Configuration -/

theorem readConfig (read : Decode.Source → Except Decode.DecodeError α) (path : String) :
    Mirrors s (Site.readConfig f read path) (Site.readConfig g read path) := by
  refine (h.readText path).bind fun text => ?_
  split <;> exact .ret _

theorem readConfigOr (read : Decode.Source → Except Decode.DecodeError α) (absent : α) (path : String) :
    Mirrors s (Site.readConfigOr f read absent path) (Site.readConfigOr g read absent path) := by
  refine (h.isThere path).bind fun there => ?_
  split
  · exact h.readConfig read path
  · exact .ret _

/-! ## Views -/

theorem viewName? (scheme : Scheme) (dir entry : String) :
    Mirrors s (Site.viewName? f scheme dir entry) (Site.viewName? g scheme dir entry) := by
  unfold Site.viewName?
  dsimp only
  split
  · exact (h.isFile _).bind fun _ => .ret _
  · exact (h.isDirectory _).bind fun _ => .ret _

theorem viewNames (scheme : Scheme) (dir : String) (entries : List String) :
    Mirrors s (Site.viewNames f scheme dir entries) (Site.viewNames g scheme dir entries) := by
  induction entries with
  | nil => exact .ret _
  | cons entry rest ih => exact (h.viewName? scheme dir entry).bind fun _ => ih.bind fun _ => .ret _

theorem schemeNames (viewsDir : String) (scheme : Scheme) :
    Mirrors s (Site.schemeNames f viewsDir scheme) (Site.schemeNames g viewsDir scheme) := by
  refine (h.isDirectory _).bind fun there => ?_
  split
  · refine (h.sortedNames _).bind fun entries => ?_
    split
    · exact .ret _
    · exact (h.viewNames scheme _ _).bind fun _ => .ret _
  · exact .ret _

theorem discoverAll (viewsDir : String) (schemes : List Scheme) (found : Catalog × Nat) :
    Mirrors s (Site.discoverAll f viewsDir schemes found) (Site.discoverAll g viewsDir schemes found) := by
  induction schemes generalizing found with
  | nil => exact .ret _
  | cons scheme rest ih =>
    refine (h.schemeNames viewsDir scheme).bind fun names => ?_
    split
    · exact .ret _
    · exact ih _

theorem loadCatalog (site : String) (manifest : Manifest) :
    Mirrors s (Site.loadCatalog f site manifest) (Site.loadCatalog g site manifest) := by
  refine (h.isDirectory _).bind fun there => ?_
  split
  · refine (h.discoverAll _ _ _).bind fun found => ?_
    split
    · exact .ret _
    · split <;> exact .ret _
  · exact .ret _

/-! ## Templates -/

theorem regionFiles (viewsDir viewDir : String) (regions : List Region) :
    Mirrors s (Site.regionFiles f viewsDir viewDir regions) (Site.regionFiles g viewsDir viewDir regions) := by
  induction regions with
  | nil => exact .ret _
  | cons region rest ih => exact (h.isFile _).bind fun _ => ih.bind fun _ => .ret _

theorem entryFiles (viewsDir : String) (scheme : Scheme) (entry : String) :
    Mirrors s (Site.entryFiles f viewsDir scheme entry) (Site.entryFiles g viewsDir scheme entry) := by
  unfold Site.entryFiles
  dsimp only
  split
  · exact (h.isFile _).bind fun _ => .ret _
  · refine (h.isDirectory _).bind fun there => ?_
    split
    · exact h.regionFiles _ _ _
    · exact .ret _

theorem entriesFiles (viewsDir : String) (scheme : Scheme) (entries : List String) :
    Mirrors s (Site.entriesFiles f viewsDir scheme entries) (Site.entriesFiles g viewsDir scheme entries) := by
  induction entries with
  | nil => exact .ret _
  | cons entry rest ih => exact (h.entryFiles viewsDir scheme entry).bind fun _ => ih.bind fun _ => .ret _

theorem viewFiles (viewsDir : String) (schemes : List Scheme) :
    Mirrors s (Site.viewFiles f viewsDir schemes) (Site.viewFiles g viewsDir schemes) := by
  induction schemes with
  | nil => exact .ret _
  | cons scheme rest ih =>
    refine (h.isDirectory _).bind fun there => ?_
    split
    · refine (h.sortedNames _).bind fun entries => ?_
      split
      · exact .ret _
      · exact (h.entriesFiles viewsDir scheme _).bind fun _ => ih.bind fun _ => .ret _
    · exact ih

theorem readTemplates (viewsDir : String) (paths : List String) :
    Mirrors s (Site.readTemplates f viewsDir paths) (Site.readTemplates g viewsDir paths) := by
  induction paths with
  | nil => exact .ret _
  | cons path rest ih =>
    refine (h.readText _).bind fun text => ?_
    split
    · exact .ret _
    · exact ih.bind fun _ => .ret _

theorem loadLibrary (viewsDir : String) (engine : Engine) :
    Mirrors s (Site.loadLibrary f viewsDir engine) (Site.loadLibrary g viewsDir engine) := by
  refine (h.isDirectory _).bind fun there => ?_
  split
  · refine (h.viewFiles _ _).bind fun paths => ?_
    split
    · exact .ret _
    · refine (h.readTemplates _ _).bind fun texts => ?_
      split <;> exact .ret _
  · exact .ret _

/-! ## Documents -/

theorem loadSite (site : String) : Mirrors s (Cli.loadSite f site).run (Cli.loadSite g site).run := by
  refine Mirrors.bindExcept (.orFail (h.readConfigOr _ _ _)) fun manifest => ?_
  exact Mirrors.bindExcept (.orFail (h.loadCatalog site manifest)) fun _ => .ret _

theorem loadRuntime (r : Cli.RenderRequest) : Mirrors s (Cli.loadRuntime f r) (Cli.loadRuntime g r) := by
  unfold Cli.loadRuntime
  split
  · exact h.readConfig _ _
  · exact h.readConfigOr _ _ _

/-- The document of a site is rendered from what is read, and nothing is changed. -/
theorem renderDocument (r : Cli.RenderRequest) (engine : Engine) :
    Mirrors s (Cli.renderDocument f r engine).run (Cli.renderDocument g r engine).run := by
  refine Mirrors.bindExcept (h.loadSite r.site) fun site => ?_
  refine Mirrors.bindExcept (.orFail (h.loadRuntime r)) fun runtime => ?_
  refine Mirrors.bindExcept (.orFail (.ret _)) fun theme => ?_
  refine Mirrors.bindExcept (.orFail (h.loadLibrary _ engine)) fun library => ?_
  exact Mirrors.bindExcept (.orFail (.ret _)) fun _ => .ret _

end Shows

end Folio
