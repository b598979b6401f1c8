import Folio.Cli.Run
import Folio.Proofs.Paths
import Folio.Proofs.Walk
import Folio.Site.FileTree

/-!
# Files that are no view files

What is loaded from a site depends on nothing below the views directory but the entries that hold views, and their files
(`SameViews`). Both ways through the directories of the schemes come upon these entries in one order, however the directories
list them and whatever they list besides (`heldEntries_congr`). So discovery and the loader end alike for files that have the
same views (`schemeNames_congr`, `viewFiles_congr`), and with them every rendering of the site (`load_of_sameViews`).
-/

namespace Folio

namespace Site

/-- A file with the extension of views holds a theme or a page, and a directory a template or a wrap. -/
def holdsView (f : Files Id) (viewsDir : String) (scheme : Scheme) (entry : String) : Bool :=
  let path := Path.join viewsDir (Path.join scheme.name entry)
  if scheme.isSingleFile then (f.isFile path).run && (Path.splitExtension entry).2 = some viewExtension
  else (f.isDirectory path).run

/-- The directory of a scheme lists the entry, which holds a view. -/
def Holds (f : Files Id) (viewsDir : String) (scheme : Scheme) (entry : String) : Prop :=
  Listed f viewsDir scheme entry ∧ holdsView f viewsDir scheme entry = true

/-- Where the files of the view of an entry may lie below the views directory. -/
def filePaths (scheme : Scheme) (entry : String) : List String :=
  if scheme.isSingleFile then [Path.join scheme.name entry]
  else Region.ofTemplate.map fun region => Path.join (Path.join scheme.name entry) region.fileName

/-- What is wrong with the directory of a scheme that cannot be read. -/
def fault? (f : Files Id) (viewsDir : String) (scheme : Scheme) : Option FileFault :=
  if (f.isDirectory (Path.join viewsDir scheme.name)).run then
    match (f.names (Path.join viewsDir scheme.name)).run with
    | .error fault => some fault
    | .ok _ => none
  else none

/-- The same views lie below a directory: the same entries hold views, and their files are there and have the same contents. -/
structure SameViews (f g : Files Id) (viewsDir : String) : Prop where
  root : (f.isDirectory viewsDir).run = (g.isDirectory viewsDir).run
  fault : ∀ scheme, fault? f viewsDir scheme = fault? g viewsDir scheme
  holds : ∀ scheme entry, Holds f viewsDir scheme entry ↔ Holds g viewsDir scheme entry
  isFile : ∀ scheme entry, Holds f viewsDir scheme entry → ∀ path ∈ filePaths scheme entry,
    (f.isFile (Path.join viewsDir path)).run = (g.isFile (Path.join viewsDir path)).run
  read : ∀ scheme entry, Holds f viewsDir scheme entry → ∀ path ∈ filePaths scheme entry,
    (f.isFile (Path.join viewsDir path)).run = true →
      (f.read (Path.join viewsDir path)).run = (g.read (Path.join viewsDir path)).run

/-- The directories of the schemes list names, each of them once. -/
def ListsNames (f : Files Id) (viewsDir : String) : Prop :=
  ∀ scheme, (listing f viewsDir scheme).Nodup ∧ ∀ entry ∈ listing f viewsDir scheme, Path.IsName entry

variable {f g : Files Id} {viewsDir : String} {scheme : Scheme} {entry : String}

/-- The entries of a scheme's directory that hold views, in the order of their characters. -/
def heldEntries (f : Files Id) (viewsDir : String) (scheme : Scheme) : List String :=
  ((listing f viewsDir scheme).mergeSort fun a b => !decide (b < a)).filter (holdsView f viewsDir scheme)

theorem mem_heldEntries_iff : entry ∈ heldEntries f viewsDir scheme ↔ Holds f viewsDir scheme entry := by
  unfold heldEntries Holds
  rw [List.mem_filter, List.mem_mergeSort, mem_listing_iff]

/-- Texts in order, each of them once, are the same if they have the same members. -/
theorem eq_of_pairwise_le {l l' : List String} (hle : l.Pairwise (· ≤ ·)) (hle' : l'.Pairwise (· ≤ ·)) (hnodup : l.Nodup)
    (hnodup' : l'.Nodup) (hmem : ∀ s, s ∈ l ↔ s ∈ l') : l = l' :=
  List.Perm.eq_of_pairwise (fun _ _ _ _ => Std.le_antisymm) hle hle' ((List.perm_ext_iff_of_nodup hnodup hnodup').mpr hmem)

theorem pairwise_heldEntries : (heldEntries f viewsDir scheme).Pairwise (· ≤ ·) :=
  (pairwise_mergeSort _).sublist List.filter_sublist

theorem nodup_heldEntries (hnames : ListsNames f viewsDir) : (heldEntries f viewsDir scheme).Nodup :=
  ((List.mergeSort_perm _ _).nodup_iff.mpr (hnames scheme).1).sublist List.filter_sublist

theorem heldEntries_congr (hf : ListsNames f viewsDir) (hg : ListsNames g viewsDir) (h : SameViews f g viewsDir)
    (scheme : Scheme) : heldEntries f viewsDir scheme = heldEntries g viewsDir scheme := by
  refine eq_of_pairwise_le pairwise_heldEntries pairwise_heldEntries (nodup_heldEntries hf) (nodup_heldEntries hg) fun entry => ?_
  rw [mem_heldEntries_iff, mem_heldEntries_iff]
  exact h.holds scheme entry

/-- Whoever goes through the sorted entries of a scheme's directory, and goes through none if there is no directory, either comes
upon the fault of the directory or goes through what it lists. -/
theorem through_listing {α : Type} (f : Files Id) (viewsDir : String) (scheme : Scheme) (failed : FileFault → α)
    (go : List String → α) :
    (if (f.isDirectory (Path.join viewsDir scheme.name)).run then
      match (f.sortedNames (Path.join viewsDir scheme.name)).run with
      | .error fault => failed fault
      | .ok entries => go entries
    else go []) =
      match fault? f viewsDir scheme with
      | some fault => failed fault
      | none => go ((listing f viewsDir scheme).mergeSort fun a b => !decide (b < a)) := by
  unfold fault? listing
  by_cases hdir : (f.isDirectory (Path.join viewsDir scheme.name)).run = true
  · have hsorted : (f.sortedNames (Path.join viewsDir scheme.name)).run =
        (f.names (Path.join viewsDir scheme.name)).run.map fun names => names.mergeSort fun a b => !decide (b < a) := rfl
    rw [if_pos hdir, if_pos hdir, if_pos hdir, hsorted]
    cases (f.names (Path.join viewsDir scheme.name)).run <;> rfl
  · rw [if_neg hdir, if_neg hdir, if_neg hdir, List.mergeSort_nil]

/-! ## Discovery -/

/-- The name of the view that an entry holds. -/
def heldName (scheme : Scheme) (entry : String) : String :=
  Text.lower (if scheme.isSingleFile then (Path.splitExtension entry).1 else entry)

/-- What lies in the directory of a scheme has the same path seen from the views directory. -/
theorem join_entry (viewsDir : String) (scheme : Scheme) (hentry : Path.IsName entry) :
    Path.join (Path.join viewsDir scheme.name) entry = Path.join viewsDir (Path.join scheme.name entry) :=
  Path.join_join viewsDir scheme.isName.isInner hentry.isInner

/-- Discovery takes an entry for a view if it holds one. -/
theorem run_viewName? (hentry : Path.IsName entry) :
    (viewName? f scheme (Path.join viewsDir scheme.name) entry).run =
      if holdsView f viewsDir scheme entry then some (heldName scheme entry) else none := by
  unfold viewName? holdsView heldName
  dsimp only
  rw [join_entry viewsDir scheme hentry]
  cases scheme.isSingleFile <;> rfl

theorem run_viewNames {entries : List String} (hentries : ∀ entry ∈ entries, Path.IsName entry) :
    (viewNames f scheme (Path.join viewsDir scheme.name) entries).run =
      (entries.filter (holdsView f viewsDir scheme)).map (heldName scheme) := by
  induction entries with
  | nil => rfl
  | cons entry rest ih =>
    obtain ⟨hentry, hrest⟩ := List.forall_mem_cons.mp hentries
    change (viewName? f scheme (Path.join viewsDir scheme.name) entry).run.toList ++ (viewNames f scheme _ rest).run = _
    rw [run_viewName? hentry, ih hrest]
    by_cases hholds : holdsView f viewsDir scheme entry = true
    · rw [if_pos hholds, List.filter_cons_of_pos hholds]
      rfl
    · rw [if_neg hholds, List.filter_cons_of_neg hholds]
      rfl

/-- The views of a scheme are those of the entries that hold one. -/
theorem run_schemeNames (hnames : ListsNames f viewsDir) (scheme : Scheme) :
    (schemeNames f viewsDir scheme).run =
      match fault? f viewsDir scheme with
      | some fault => .error (.file (Path.join viewsDir scheme.name) fault)
      | none => .ok ((heldEntries f viewsDir scheme).map (heldName scheme)) := by
  have hisName : ∀ entry ∈ (listing f viewsDir scheme).mergeSort fun a b => !decide (b < a), Path.IsName entry :=
    fun entry hmem => (hnames scheme).2 entry (List.mem_mergeSort.mp hmem)
  have hthrough := through_listing f viewsDir scheme
    (fun fault => Except.error (SiteError.file (Path.join viewsDir scheme.name) fault))
    fun entries => Except.ok (viewNames f scheme (Path.join viewsDir scheme.name) entries).run
  unfold heldEntries
  rw [← run_viewNames hisName]
  exact hthrough

theorem schemeNames_congr (hf : ListsNames f viewsDir) (hg : ListsNames g viewsDir) (h : SameViews f g viewsDir)
    (scheme : Scheme) : (schemeNames f viewsDir scheme).run = (schemeNames g viewsDir scheme).run := by
  rw [run_schemeNames hf, run_schemeNames hg, h.fault, heldEntries_congr hf hg h]

theorem discoverAll_congr (hf : ListsNames f viewsDir) (hg : ListsNames g viewsDir) (h : SameViews f g viewsDir)
    (schemes : List Scheme) (found : Catalog × Nat) :
    (discoverAll f viewsDir schemes found).run = (discoverAll g viewsDir schemes found).run := by
  induction schemes generalizing found with
  | nil => rfl
  | cons scheme rest ih =>
    simp only [discoverAll, Id.run_bind, schemeNames_congr hf hg h]
    split
    · rfl
    · exact ih _

theorem loadCatalog_congr {site : String} (hf : ListsNames f (viewsPath site)) (hg : ListsNames g (viewsPath site))
    (h : SameViews f g (viewsPath site)) (manifest : Manifest) :
    (loadCatalog f site manifest).run = (loadCatalog g site manifest).run := by
  unfold loadCatalog discover
  rw [Id.run_bind, Id.run_bind, h.root]
  split
  · rw [Id.run_bind, Id.run_bind, discoverAll_congr hf hg h]
  · rfl

/-! ## The loader -/

/-- The files of the view of an entry that are there, below the views directory. -/
def filesThere (f : Files Id) (viewsDir : String) (scheme : Scheme) (entry : String) : List String :=
  (filePaths scheme entry).filter fun path => (f.isFile (Path.join viewsDir path)).run

theorem run_regionFiles (viewDir : String) (regions : List Region) :
    (regionFiles f viewsDir viewDir regions).run =
      (regions.map fun region => Path.join viewDir region.fileName).filter fun path =>
        (f.isFile (Path.join viewsDir path)).run := by
  induction regions with
  | nil => rfl
  | cons region rest ih =>
    simp only [regionFiles, Id.run_bind, Id.run_pure, List.map_cons, List.filter_cons, ih]

/-- The loader takes the files of an entry that holds a view, and none of another. -/
theorem run_entryFiles :
    (entryFiles f viewsDir scheme entry).run =
      if holdsView f viewsDir scheme entry then filesThere f viewsDir scheme entry else [] := by
  unfold entryFiles holdsView filesThere filePaths
  dsimp only
  cases hfile : scheme.isSingleFile with
  | true =>
    rw [if_pos rfl, if_pos rfl, if_pos rfl, Id.run_bind, Id.run_pure]
    split
    · rename_i hholds
      have hthere := (Bool.and_eq_true_iff.mp hholds).1
      simp only [List.filter_cons, List.filter_nil, hthere, if_true]
    · rfl
  | false =>
    rw [if_neg Bool.false_ne_true, if_neg Bool.false_ne_true, if_neg Bool.false_ne_true, Id.run_bind]
    split
    · exact run_regionFiles _ _
    · rfl

theorem run_entriesFiles (entries : List String) :
    (entriesFiles f viewsDir scheme entries).run =
      (entries.filter (holdsView f viewsDir scheme)).flatMap (filesThere f viewsDir scheme) := by
  induction entries with
  | nil => rfl
  | cons entry rest ih =>
    simp only [entriesFiles, Id.run_bind, Id.run_pure, run_entryFiles, ih]
    by_cases hholds : holdsView f viewsDir scheme entry = true
    · rw [if_pos hholds, List.filter_cons_of_pos hholds, List.flatMap_cons]
    · rw [if_neg hholds, List.filter_cons_of_neg hholds, List.nil_append]

/-- The files of some schemes are those of the entries that hold views. -/
theorem run_viewFiles_cons (scheme : Scheme) (rest : List Scheme) :
    (viewFiles f viewsDir (scheme :: rest)).run =
      match fault? f viewsDir scheme with
      | some fault => .error (.file (Path.join viewsDir scheme.name) fault)
      | none => (viewFiles f viewsDir rest).run.map
          ((heldEntries f viewsDir scheme).flatMap (filesThere f viewsDir scheme) ++ ·) := by
  have hnone : (viewFiles f viewsDir rest).run = (viewFiles f viewsDir rest).run.map ([] ++ ·) := by
    cases (viewFiles f viewsDir rest).run <;> rfl
  have hthrough := through_listing f viewsDir scheme
    (fun fault => Except.error (TemplatesError.file (Path.join viewsDir scheme.name) fault))
    fun entries => (viewFiles f viewsDir rest).run.map ((entriesFiles f viewsDir scheme entries).run ++ ·)
  unfold heldEntries
  rw [← run_entriesFiles]
  refine Eq.trans ?_ hthrough
  change _ = ite _ _ ((viewFiles f viewsDir rest).run.map ([] ++ ·))
  rw [← hnone]
  rfl

theorem viewFiles_congr (hf : ListsNames f viewsDir) (hg : ListsNames g viewsDir) (h : SameViews f g viewsDir)
    (schemes : List Scheme) : (viewFiles f viewsDir schemes).run = (viewFiles g viewsDir schemes).run := by
  induction schemes with
  | nil => rfl
  | cons scheme rest ih =>
    have hthere : (heldEntries f viewsDir scheme).flatMap (filesThere f viewsDir scheme) =
        (heldEntries g viewsDir scheme).flatMap (filesThere g viewsDir scheme) := by
      rw [← heldEntries_congr hf hg h scheme, List.flatMap_def, List.flatMap_def]
      refine congrArg List.flatten (List.map_congr_left fun entry hentry => List.filter_congr fun path hpath => ?_)
      exact h.isFile scheme entry (mem_heldEntries_iff.mp hentry) path hpath
    rw [run_viewFiles_cons, run_viewFiles_cons, h.fault, ih, hthere]

/-- The files that are loaded are those of the entries that hold views. -/
theorem exists_of_mem_viewFiles {schemes : List Scheme} {paths : List String} {path : String}
    (h : (viewFiles f viewsDir schemes).run = .ok paths) (hpath : path ∈ paths) :
    ∃ scheme entry, Holds f viewsDir scheme entry ∧ path ∈ filesThere f viewsDir scheme entry := by
  obtain ⟨scheme, -, entry, hlisted, hfile⟩ := (mem_viewFiles h path).mp hpath
  rw [run_entryFiles] at hfile
  split at hfile
  · rename_i hholds
    exact ⟨scheme, entry, ⟨hlisted, hholds⟩, hfile⟩
  · cases hfile

theorem readTemplates_congr {paths : List String}
    (h : ∀ path ∈ paths, (f.read (Path.join viewsDir path)).run = (g.read (Path.join viewsDir path)).run) :
    (readTemplates f viewsDir paths).run = (readTemplates g viewsDir paths).run := by
  induction paths with
  | nil => rfl
  | cons path rest ih =>
    obtain ⟨hpath, hrest⟩ := List.forall_mem_cons.mp h
    have htext : (f.readText (Path.join viewsDir path)).run = (g.readText (Path.join viewsDir path)).run :=
      congrArg (·.bind Files.textOf) hpath
    simp only [readTemplates, Id.run_bind, htext]
    split
    · rfl
    · rw [Id.run_bind, Id.run_bind, ih hrest]

/-- The texts of the templates of a site. -/
def siteTexts (f : Files Id) (viewsDir : String) : Except TemplatesError (List (String × String)) :=
  if (f.isDirectory viewsDir).run then
    (viewFiles f viewsDir Scheme.all).run.bind fun paths => (readTemplates f viewsDir paths).run
  else .ok []

theorem run_loadLibrary (f : Files Id) (viewsDir : String) (engine : Engine) :
    (loadLibrary f viewsDir engine).run =
      (siteTexts f viewsDir).bind fun texts => (Library.ofTexts texts engine).mapError .library := by
  unfold loadLibrary siteTexts
  rw [Id.run_bind]
  split
  · rw [Id.run_bind]
    cases (viewFiles f viewsDir Scheme.all).run with
    | error e => rfl
    | ok paths =>
      dsimp only
      rw [Id.run_bind]
      change _ = (readTemplates f viewsDir paths).run.bind _
      cases (readTemplates f viewsDir paths).run with
      | error e => rfl
      | ok texts => rfl
  · rfl

theorem siteTexts_congr (hf : ListsNames f viewsDir) (hg : ListsNames g viewsDir) (h : SameViews f g viewsDir) :
    siteTexts f viewsDir = siteTexts g viewsDir := by
  unfold siteTexts
  rw [h.root, ← viewFiles_congr hf hg h]
  split
  · cases hpaths : (viewFiles f viewsDir Scheme.all).run with
    | error e => rfl
    | ok paths =>
      refine readTemplates_congr fun path hpath => ?_
      obtain ⟨scheme, entry, hholds, hthere⟩ := exists_of_mem_viewFiles hpaths hpath
      obtain ⟨hmem, hfile⟩ := List.mem_filter.mp hthere
      exact h.read scheme entry hholds path hmem hfile
  · rfl

theorem loadLibrary_congr (hf : ListsNames f viewsDir) (hg : ListsNames g viewsDir) (h : SameViews f g viewsDir)
    (engine : Engine) : (loadLibrary f viewsDir engine).run = (loadLibrary g viewsDir engine).run := by
  rw [run_loadLibrary, run_loadLibrary, siteTexts_congr hf hg h]

/-! ## Documents -/

/-- The document of a site for whoever listens: the theme of a runtime is rendered with the views and the templates of the site.
-/
def renderSite {σ : Type} (f : Files Id) (site : String) (engine : Engine) (manifest : Manifest) (listener : Listener σ)
    (runtime : Runtime) (s : σ) : Except SiteError (Except TemplatesError (Except RenderError String × Run σ)) :=
  (loadCatalog f site manifest).run.map fun catalog => (loadLibrary f (viewsPath site) engine).run.map fun library =>
    let r : Renderer σ :=
      { resolve := Keyed.get? catalog, hasTemplate := library.has, execute := library.execute, listener,
        settings := manifest.render }
    r.renderRoute runtime s

/-- Files below a views directory that have the same views there, whatever else they have, in one order or another. The texts of
their templates are the same, or they cannot be read for the same reason, and so are the libraries that any engine makes of them.
The same views are discovered, and as many. So sites with these views have the same catalog and the same document, for every
engine, manifest, listener and runtime, and the program renders the same if the manifest and the runtime that it reads are. -/
theorem load_of_sameViews (hf : ListsNames f viewsDir) (hg : ListsNames g viewsDir) (h : SameViews f g viewsDir) :
    siteTexts f viewsDir = siteTexts g viewsDir ∧
      (∀ engine, (loadLibrary f viewsDir engine).run = (loadLibrary g viewsDir engine).run) ∧
      (∀ c, (discover f c viewsDir).run = (discover g c viewsDir).run) ∧
      ∀ site, viewsPath site = viewsDir →
        (∀ manifest, (loadCatalog f site manifest).run = (loadCatalog g site manifest).run) ∧
        (∀ engine {σ : Type} (manifest : Manifest) (listener : Listener σ) (runtime : Runtime) (s : σ),
          renderSite f site engine manifest listener runtime s = renderSite g site engine manifest listener runtime s) ∧
        ∀ engine, ∀ request : Cli.RenderRequest, request.site = site → (loadManifest f site).run = (loadManifest g site).run →
          (Cli.loadRuntime f request).run = (Cli.loadRuntime g request).run →
            (Cli.renderDocument f request engine).run.run = (Cli.renderDocument g request engine).run.run := by
  have hlibrary := loadLibrary_congr hf hg h
  refine ⟨siteTexts_congr hf hg h, hlibrary, fun c => discoverAll_congr hf hg h _ _, ?_⟩
  rintro site rfl
  have hcatalog (manifest : Manifest) := loadCatalog_congr hf hg h manifest
  refine ⟨hcatalog, fun engine _ manifest listener runtime s => ?_, fun engine => ?_⟩
  · unfold renderSite
    rw [hcatalog, hlibrary]
  · rintro request rfl hmanifest hruntime
    have hcatalogs : loadCatalog f request.site = loadCatalog g request.site := funext hcatalog
    unfold Cli.renderDocument Cli.loadSite
    rw [show loadManifest f request.site = loadManifest g request.site from hmanifest, hcatalogs,
      show Cli.loadRuntime f request = Cli.loadRuntime g request from hruntime,
      show loadLibrary f (viewsPath request.site) engine = loadLibrary g (viewsPath request.site) engine from hlibrary engine]

/-- Files have the same views if the entries that hold views are listed alike, and their files are read with the same contents. -/
theorem sameViews_of_listing (hroot : (f.isDirectory viewsDir).run = (g.isDirectory viewsDir).run)
    (hfault : ∀ scheme ∈ Scheme.all, fault? f viewsDir scheme = fault? g viewsDir scheme)
    (hlisting : ∀ scheme ∈ Scheme.all, (listing f viewsDir scheme).filter (holdsView f viewsDir scheme) =
      (listing g viewsDir scheme).filter (holdsView g viewsDir scheme))
    (hfiles : ∀ scheme ∈ Scheme.all, ∀ entry ∈ (listing f viewsDir scheme).filter (holdsView f viewsDir scheme),
      ∀ path ∈ filePaths scheme entry, (f.isFile (Path.join viewsDir path)).run = (g.isFile (Path.join viewsDir path)).run ∧
        ((f.isFile (Path.join viewsDir path)).run = true → (f.read (Path.join viewsDir path)).run.toOption.isSome = true ∧
          (f.read (Path.join viewsDir path)).run.toOption = (g.read (Path.join viewsDir path)).run.toOption)) :
    SameViews f g viewsDir := by
  have hmem {f : Files Id} {scheme : Scheme} {entry : String} :
      Holds f viewsDir scheme entry ↔ entry ∈ (listing f viewsDir scheme).filter (holdsView f viewsDir scheme) := by
    rw [List.mem_filter, mem_listing_iff]
    rfl
  refine ⟨hroot, fun scheme => hfault scheme scheme.mem_all, fun scheme entry => ?_, fun scheme entry hholds path hpath => ?_,
    fun scheme entry hholds path hpath hfile => ?_⟩
  · rw [hmem, hmem, hlisting scheme scheme.mem_all]
  · exact (hfiles scheme scheme.mem_all entry (hmem.mp hholds) path hpath).1
  · obtain ⟨hread, hcontent⟩ := (hfiles scheme scheme.mem_all entry (hmem.mp hholds) path hpath).2 hfile
    cases hf : (f.read (Path.join viewsDir path)).run with
    | error fault =>
      rw [hf] at hread
      cases hread
    | ok content =>
      rw [hf] at hcontent
      cases hg : (g.read (Path.join viewsDir path)).run with
      | error fault =>
        rw [hg] at hcontent
        cases hcontent
      | ok content' =>
        rw [hg] at hcontent
        exact congrArg Except.ok (Option.some.inj hcontent)

/-- A site with a theme and a template, and nothing else. -/
def tidyTree : FileTree :=
  .directory [("views", .directory [
    ("template", .directory [("list", .directory [("body.tera", .file "row".toUTF8)])]),
    ("theme", .directory [("default.tera", .file "<include list />".toUTF8)])])]

/-- The same site with files that cannot be read as templates, and with files and directories where none are looked for. -/
def strayTree : FileTree :=
  let broken : FileTree := .file "\x7b% if".toUTF8
  .directory [("views", .directory [
    ("notes.tera", broken),
    ("page", .file "no directory".toUTF8),
    ("partials", .directory [("broken.tera", broken)]),
    ("template", .directory [
      ("list", .directory [
        ("body.tera", .file "row".toUTF8), ("deep", .directory [("body.tera", broken)]), ("part.tera", broken)]),
      ("stray.tera", .file ⟨#[0xff]⟩)]),
    ("theme", .directory [
      ("default.TERA", broken), ("default.tera", .file "<include list />".toUTF8),
      ("old.tera", .directory [("default.tera", broken)])])])]

/-- `load_of_sameViews` of the two sites, whose templates can be loaded. -/
theorem load_of_sameViews_strays :
    SameViews strayTree.files tidyTree.files "views" ∧
      (∃ lib, (loadLibrary strayTree.files "views").run = .ok lib ∧ (loadLibrary tidyTree.files "views").run = .ok lib) ∧
      (∀ c, (discover strayTree.files c "views").run = (discover tidyTree.files c "views").run) ∧
      renderSite strayTree.files "" Template.engine {} Listener.silent {} () =
        renderSite tidyTree.files "" Template.engine {} Listener.silent {} () := by
  have hstray : ListsNames strayTree.files "views" := by
    intro scheme
    cases scheme <;> decide +kernel
  have htidy : ListsNames tidyTree.files "views" := by
    intro scheme
    cases scheme <;> decide +kernel
  have hsame : SameViews strayTree.files tidyTree.files "views" :=
    sameViews_of_listing (by decide +kernel) (by decide +kernel) (by decide +kernel) (by decide +kernel)
  obtain ⟨-, hlibrary, hdiscover, hsites⟩ := load_of_sameViews hstray htidy hsame
  obtain ⟨lib, hlib, -⟩ := exists_ok_of_map (x := (loadLibrary tidyTree.files "views").run) (g := fun _ => ()) (b := ())
    (by decide +kernel)
  exact ⟨hsame, ⟨lib, (hlibrary _).trans hlib, hlib⟩, hdiscover, (hsites "" rfl).2.1 _ _ _ _ _⟩

end Site

end Folio
