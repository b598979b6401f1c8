import Folio.Cli.Run
import Folio.Proofs.Execution
import Folio.Proofs.Paths
import Folio.Proofs.Walk
import Folio.Site.FileTree

/-!
# Views that are found and templates that are loaded

Discovery and the loader go through the same directories, but discovery puts the names of views in lower case, and the loader
whole paths. A view that is a directory keeps its files. A view that is a file is lost when the stems of its files end in a
final sigma, which is no final one in the path: `discovered_has_iff` says which views the library has, and
`discovered_not_has` that it need not have them all.
-/

namespace Folio

/-! ## The names of view files -/

namespace Text

theorem slash_not_mem_lower {s : String} (h : '/' ∉ s.toList) : '/' ∉ (lower s).toList := by
  unfold lower
  rw [String.toList_ofList]
  exact fun hmem => h ((exists_formOf hmem).2.1 rfl)

theorem toList_ending (s : String) : (s ++ "." ++ viewExtension).toList = s.toList ++ ['.', 't', 'e', 'r', 'a'] := by
  rw [String.toList_append, String.toList_append, List.append_assoc]
  rfl

theorem settled_ending : ∀ c ∈ ['.', 't', 'e', 'r', 'a'], Settled c := by
  have hall : (['.', 't', 'e', 'r', 'a'].all fun c => decide (Settled c)) = true := by decide +kernel
  exact fun c hc => of_decide_eq_true (List.all_eq_true.mp hall c hc)

theorem reachesCased_ending : reachesCased ['.', 't', 'e', 'r', 'a'] = true := by
  decide +kernel

/-- The file name that is looked for stays as it is. -/
theorem lower_lower_ending (s : String) : lower (lower s ++ "." ++ viewExtension) = lower s ++ "." ++ viewExtension := by
  apply String.toList_injective
  have hsettled : ∀ c ∈ (lower s).toList ++ ['.', 't', 'e', 'r', 'a'], Settled c := by
    intro c hc
    rcases List.mem_append.mp hc with hc | hc
    · rw [lower, String.toList_ofList] at hc
      exact (exists_formOf hc).1
    · exact settled_ending c hc
  rw [lower, String.toList_ofList, toList_ending, lowerAfter_of_settled hsettled]

/-- The file name that is loaded is the one that is looked for, unless the stem ends in a final sigma. -/
theorem lower_ending {s : String} (h : ¬ EndsInSigma s.toList) :
    lower (s ++ "." ++ viewExtension) = lower s ++ "." ++ viewExtension := by
  apply String.toList_injective
  rw [lower, String.toList_ofList, toList_ending, lowerAfter_append_ending h settled_ending, toList_ending, lower,
    String.toList_ofList]

theorem not_endsInSigma_of_lower {s s' : String} (h : lower (s' ++ "." ++ viewExtension) = lower s ++ "." ++ viewExtension) :
    ¬ EndsInSigma s.toList ∨ (¬ EndsInSigma s'.toList ∧ lower s' = lower s) := by
  have hlist := congrArg String.toList h
  rw [lower, String.toList_ofList, toList_ending, toList_ending, lower, String.toList_ofList] at hlist
  rcases not_endsInSigma_of_form reachesCased_ending settled_ending hlist with hs | ⟨hs', hform⟩
  · exact Or.inl hs
  · exact Or.inr ⟨hs', congrArg String.ofList hform⟩

end Text

namespace Site

/-! ## Views and their files -/

variable {f : Files Id} {viewsDir : String} {scheme : Scheme} {entry name : String} {lib : Library}

/-- A file is found under the lowercase form of its stem. -/
theorem found_file_iff (hfile : scheme.isSingleFile = true) :
    Found f viewsDir scheme entry name ↔ Listed f viewsDir scheme entry ∧
      ((f.isFile (Path.join (Path.join viewsDir scheme.name) entry)).run = true ∧
        (Path.splitExtension entry).2 = some viewExtension) ∧ name = Text.lower (Path.splitExtension entry).1 := by
  unfold Found Eligible
  rw [hfile, if_pos rfl, if_pos rfl]

/-- A directory is found under its lowercase form. -/
theorem found_directory_iff (hdirectory : scheme.isSingleFile = false) :
    Found f viewsDir scheme entry name ↔ Listed f viewsDir scheme entry ∧
      (f.isDirectory (Path.join (Path.join viewsDir scheme.name) entry)).run = true ∧ name = Text.lower entry := by
  unfold Found Eligible
  rw [hdirectory, if_neg Bool.false_ne_true, if_neg Bool.false_ne_true]

theorem join_scheme (hentry : Path.IsName entry) : Path.join scheme.name entry = scheme.name ++ "/" ++ entry :=
  scheme.isName.isInner.join_eq hentry.isInner.2.1

theorem join_region (hentry : Path.IsName entry) (region : Region) :
    Path.join (Path.join scheme.name entry) region.fileName = scheme.name ++ "/" ++ (entry ++ "/" ++ region.fileName) := by
  rw [(scheme.isName.isInner.join hentry.isInner).join_eq region.isName.isInner.2.1, join_scheme hentry]
  simp only [String.append_assoc]

/-- The files of an entry lie below the directory of its scheme. -/
theorem below_of_mem_entryFiles (hentry : Path.IsName entry) {path : String}
    (h : path ∈ (entryFiles f viewsDir scheme entry).run) : ∃ rest, path = scheme.name ++ "/" ++ rest := by
  cases hscheme : scheme.isSingleFile with
  | true =>
    obtain ⟨-, rfl⟩ := (mem_entryFiles_file hscheme entry path).mp h
    exact ⟨entry, join_scheme hentry⟩
  | false =>
    obtain ⟨-, region, -, -, rfl⟩ := (mem_entryFiles_directory hscheme entry path).mp h
    exact ⟨_, join_region hentry region⟩

/-- The name of a template is its own. -/
theorem templateName_templateName_below (scheme : Scheme) (rest : String) :
    templateName (templateName (scheme.name ++ "/" ++ rest)) = scheme.name ++ "/" ++ Text.slashed (Text.lower rest) := by
  rw [templateName_below, templateName_below, Text.lower_slashed, Text.lower_lower, Text.slashed_slashed]

/-- The templates that are always there are those of wraps. -/
theorem wrap_of_mem_builtins {key : String} (h : key ∈ Library.builtinTexts.map Prod.fst) :
    ∃ rest, key = Scheme.wrap.name ++ "/" ++ rest := by
  have hkeys : ∀ key ∈ Library.builtinTexts.map Prod.fst,
      key = Scheme.wrap.name ++ "/" ++ String.ofList (key.toList.drop 5) := by
    decide +kernel
  exact ⟨_, hkeys key h⟩

theorem isName_ending {stem : String} (hstem : '/' ∉ stem.toList) : Path.IsName (stem ++ "." ++ viewExtension) := by
  refine ⟨fun h => ?_, ?_⟩
  · have hnil := congrArg String.toList h
    rw [Text.toList_ending] at hnil
    exact absurd hnil (List.append_ne_nil_of_right_ne_nil _ (List.cons_ne_nil _ _))
  · rw [Text.toList_ending, List.mem_append, not_or]
    exact ⟨hstem, by decide⟩

theorem isName_lower (hentry : Path.IsName entry) : Path.IsName (Text.lower entry) :=
  ⟨Text.lower_ne_empty hentry.1, Text.slash_not_mem_lower hentry.2⟩

theorem includePath_file (hfile : scheme.isSingleFile = true) {stem : String} (hstem : '/' ∉ stem.toList) :
    (View.conventional scheme (Text.lower stem)).includePath =
      scheme.name ++ "/" ++ (Text.lower stem ++ "." ++ viewExtension) := by
  change Path.join scheme.name (if scheme.isSingleFile then _ else _) = _
  rw [if_pos hfile, join_scheme (isName_ending (Text.slash_not_mem_lower hstem))]

theorem includePath_directory (hdirectory : scheme.isSingleFile = false) :
    (View.conventional scheme name).includePath = Path.join scheme.name name := by
  change Path.join scheme.name (if scheme.isSingleFile then _ else _) = _
  rw [hdirectory, if_neg Bool.false_ne_true]

/-- The stem of a file, with the ending of view files, is the file. -/
theorem eq_stem_ending (hextension : (Path.splitExtension entry).2 = some viewExtension) :
    entry = (Path.splitExtension entry).1 ++ "." ++ viewExtension :=
  Path.eq_of_splitExtension (Prod.ext rfl hextension)

theorem slash_not_mem_stem (hentry : Path.IsName entry) (hextension : (Path.splitExtension entry).2 = some viewExtension) :
    '/' ∉ (Path.splitExtension entry).1.toList := by
  intro hmem
  refine hentry.2 ?_
  rw [eq_stem_ending hextension, Text.toList_ending]
  exact List.mem_append_left _ hmem

section Loaded

variable {engine : Engine} {output : Engine.Output} (hengine : engine.Lawful output)
  (hnames : ∀ scheme entry, Listed f viewsDir scheme entry → Path.IsName entry)
  (hdir : (f.isDirectory viewsDir).run = true) (hload : (loadLibrary f viewsDir engine).run = .ok lib)
include hengine hnames hdir hload

/-- The library has the file of a view that is found if one of the files that it is found by has a stem that does not end in
a final sigma, and only then. -/
theorem has_file_iff (hfile : scheme.isSingleFile = true) (hfound : Found f viewsDir scheme entry name) :
    lib.has (View.conventional scheme name).includePath = true ↔
      ∃ e, Found f viewsDir scheme e name ∧ ¬ Text.EndsInSigma (Path.splitExtension e).1.toList := by
  have hfound' := hfound
  obtain ⟨hlisted, ⟨hthere, hextension⟩, rfl⟩ := (found_file_iff hfile).mp hfound'
  have hstem := slash_not_mem_stem (hnames _ _ hlisted) hextension
  rw [has_of_loadLibrary hengine hdir hload, includePath_file hfile hstem, templateName_below, Text.lower_lower_ending]
  constructor
  · rintro (hbuiltin | ⟨scheme', e, path, hlisted', hpath, heq⟩)
    · obtain ⟨rest, hrest⟩ := wrap_of_mem_builtins hbuiltin
      obtain ⟨rfl, -⟩ := Scheme.below_inj hrest
      cases hfile
    · have hname := hnames _ _ hlisted'
      obtain ⟨rest, rfl⟩ := below_of_mem_entryFiles hname hpath
      rw [templateName_templateName_below] at heq
      obtain ⟨rfl, hform⟩ := Scheme.below_inj heq
      obtain ⟨⟨hthere', hextension'⟩, hrest⟩ := (mem_entryFiles_file hfile e _).mp hpath
      rw [join_scheme hname] at hrest
      obtain ⟨-, rfl⟩ := Scheme.below_inj hrest
      have hends := (isName_ending (Text.slash_not_mem_lower hstem)).2
      have hlower := Text.slashed_inj (Text.slash_not_mem_lower hname.2) hends hform
      rw [eq_stem_ending hextension'] at hlower
      rcases Text.not_endsInSigma_of_lower hlower with hsigma | ⟨hsigma, hstems⟩
      · exact ⟨entry, hfound, hsigma⟩
      · refine ⟨rest, (found_file_iff hfile).mpr ⟨hlisted', ⟨?_, hextension'⟩, hstems.symm⟩, hsigma⟩
        rwa [Path.join_join _ scheme'.isName.isInner hname.isInner]
  · rintro ⟨e, hfound', hsigma⟩
    obtain ⟨hlisted', ⟨hthere', hextension'⟩, hstems⟩ := (found_file_iff hfile).mp hfound'
    have hname := hnames _ _ hlisted'
    refine Or.inr ⟨scheme, e, Path.join scheme.name e, hlisted', ?_, ?_⟩
    · refine (mem_entryFiles_file hfile e _).mpr ⟨⟨?_, hextension'⟩, rfl⟩
      rwa [← Path.join_join _ scheme.isName.isInner hname.isInner]
    · rw [join_scheme hname, templateName_templateName_below, eq_stem_ending hextension', Text.lower_ending hsigma, hstems]

/-- The library has the region files of every directory that a view is found by. -/
theorem has_region (hdirectory : scheme.isSingleFile = false) (hfound : Found f viewsDir scheme entry name) {region : Region}
    (hthere : (f.isFile (Path.join (Path.join (Path.join viewsDir scheme.name) entry) region.fileName)).run = true) :
    lib.has ((View.conventional scheme name).file region.fileName) = true := by
  obtain ⟨hlisted, hentry, rfl⟩ := (found_directory_iff hdirectory).mp hfound
  have hname := hnames _ _ hlisted
  have hinner := scheme.isName.isInner.join hname.isInner
  rw [Path.join_join _ scheme.isName.isInner hname.isInner] at hentry hthere
  rw [Path.join_join _ hinner region.isName.isInner] at hthere
  have hfile := (mem_entryFiles_directory hdirectory entry _).mpr ⟨hentry, region, region.mem_ofTemplate, hthere, rfl⟩
  refine (has_of_loadLibrary hengine hdir hload _).mpr (Or.inr ⟨scheme, entry, _, hlisted, hfile, ?_⟩)
  rw [View.file, includePath_directory hdirectory, join_region hname, join_region (isName_lower hname),
    templateName_templateName_below, templateName_below, Text.lower_slash, Text.lower_slash, Text.lower_lower]

end Loaded

/-- The name that a view is found under is in lower case. -/
theorem Found.lower_name (h : Found f viewsDir scheme entry name) : Text.lower name = name := by
  cases hscheme : scheme.isSingleFile with
  | true =>
    obtain ⟨-, -, rfl⟩ := (found_file_iff hscheme).mp h
    exact Text.lower_lower _
  | false =>
    obtain ⟨-, -, rfl⟩ := (found_directory_iff hscheme).mp h
    exact Text.lower_lower _

/-- Rendering a theme or a page does not find the file exactly if the library does not have it. -/
theorem renderPage_notFound_iff (c : Catalog) (lib : Library) (settings : Settings) (v : View) (row : Row) (a : Run Unit) :
    (∃ path, (Rendering.exec ((Cli.rendererOf c lib settings).renderPage v row) a).1 = .error (.notFound path)) ↔
      lib.has v.includePath = false := by
  unfold Renderer.renderPage
  change (∃ path, (Rendering.exec (if lib.has v.includePath then _ else _) a).1 = _) ↔ _
  cases hhas : lib.has v.includePath with
  | false => exact ⟨fun _ => rfl, fun _ => ⟨_, rfl⟩⟩
  | true =>
    rw [if_pos rfl, Rendering.exec_bind_ok (Rendering.exec_context a), Rendering.exec_run, ← hhas]
    exact Library.execute_notFound_iff lib v.includePath _

/-- Discovery and the loader on one tree of views, whichever engine takes the templates in. Every view of the catalog was there
before or is registered, and the catalog has the reference of every view that is registered. The library has the file of a theme
or a page exactly if one of the files that it is found by has a stem that does not end in a final sigma, and it is found when it is
rendered exactly if the library has it. The library has all region files of the directories that a template or a wrap is found by.
-/
theorem discovered_has_iff (f : Files Id) (viewsDir : String) (start : Catalog) (found : Catalog × Nat) (lib : Library)
    (hnames : ∀ scheme entry, Listed f viewsDir scheme entry → Path.IsName entry)
    (hdir : (f.isDirectory viewsDir).run = true) (hdiscover : (discover f start viewsDir).run = .ok found)
    {engine : Engine} {output : Engine.Output} (hengine : engine.Lawful output)
    (hload : (loadLibrary f viewsDir engine).run = .ok lib) :
    (∀ key v, Keyed.get? found.1 key = some v → Keyed.get? start key = some v ∨ Registered f viewsDir v) ∧
      ∀ v, Registered f viewsDir v → Keyed.hasKey found.1 v.reference = true ∧
        (v.scheme.isSingleFile = true →
          (lib.has v.includePath = true ↔
            ∃ entry, Found f viewsDir v.scheme entry v.name ∧ ¬ Text.EndsInSigma (Path.splitExtension entry).1.toList) ∧
          ∀ settings row a,
            (∃ path, (Rendering.exec ((Cli.rendererOf found.1 lib settings).renderPage v row) a).1 =
              .error (.notFound path)) ↔ lib.has v.includePath = false) ∧
        (v.scheme.isSingleFile = false → ∀ entry (region : Region), Found f viewsDir v.scheme entry v.name →
          (f.isFile (Path.join (Path.join (Path.join viewsDir v.scheme.name) entry) region.fileName)).run = true →
          lib.has (v.file region.fileName) = true) := by
  refine ⟨fun key v hv => registered_of_discoverAll hdiscover hv, ?_⟩
  rintro v ⟨scheme, entry, name, hfound, rfl⟩
  have hname : (View.conventional scheme name).name = name := hfound.lower_name
  rw [hname]
  refine ⟨?_, fun hfile => ⟨has_file_iff hengine hnames hdir hload hfile hfound, ?_⟩, ?_⟩
  · exact (hasKey_discoverAll hdiscover _).mpr (Or.inr ⟨scheme, scheme.mem_all, entry, name, hfound, rfl⟩)
  · intro settings row a
    exact renderPage_notFound_iff found.1 lib settings _ row a
  · intro hdirectory entry' region hfound' hthere
    exact has_region hengine hnames hdir hload hdirectory hfound' hthere

theorem isName_of_listing (h : ∀ scheme ∈ Scheme.all, ∀ entry ∈ listing f viewsDir scheme, Path.IsName entry)
    (scheme : Scheme) (entry : String) (hlisted : Listed f viewsDir scheme entry) : Path.IsName entry :=
  h scheme scheme.mem_all entry (mem_listing_iff.mpr hlisted)

/-- A site with a page whose name has a sigma that is no final one, and a template whose name has one that is. -/
def mixedTree : FileTree :=
  .directory [("views", .directory [
    ("page", .directory [("ΣΑ.tera", .file "x".toUTF8)]),
    ("template", .directory [("ΑΣ", .directory [("body.tera", .file "y".toUTF8)])])])]

/-- `discovered_has_iff` of a page and a template that the library has. -/
theorem discovered_has_iff_mixed :
    ∃ found lib, (discover mixedTree.files [] "views").run = .ok found ∧
      (loadLibrary mixedTree.files "views").run = .ok lib ∧
      lib.has (View.conventional .page "σα").includePath = true ∧
      lib.has ((View.conventional .template "ας").file Region.body.fileName) = true := by
  obtain ⟨found, hdiscover, -⟩ :=
    exists_ok_of_map (x := (discover mixedTree.files [] "views").run) (g := Prod.snd) (b := 2) (by decide +kernel)
  obtain ⟨lib, hload, -⟩ :=
    exists_ok_of_map (x := (loadLibrary mixedTree.files "views").run) (g := fun _ => ()) (b := ()) (by decide +kernel)
  have hnames : ∀ scheme entry, Listed mixedTree.files "views" scheme entry → Path.IsName entry :=
    isName_of_listing (by decide +kernel)
  have hagree := (discovered_has_iff mixedTree.files "views" [] found lib hnames (by decide +kernel) hdiscover
    Template.lawful_engine hload).2
  have hpage : Found mixedTree.files "views" .page "ΣΑ.tera" "σα" := by decide +kernel
  have hpage' : (View.conventional .page "σα").name = "σα" := hpage.lower_name
  have htemplate : Found mixedTree.files "views" .template "ΑΣ" "ας" := by decide +kernel
  have htemplate' : (View.conventional .template "ας").name = "ας" := htemplate.lower_name
  have hsigma : ¬ Text.EndsInSigma (Path.splitExtension "ΣΑ.tera").1.toList := by
    rw [show (Path.splitExtension "ΣΑ.tera").1.toList = ['Σ'] ++ ['Α'] from by decide +kernel]
    exact Text.not_endsInSigma_append (by decide) (by decide +kernel) _
  refine ⟨found, lib, hdiscover, hload, ?_, ?_⟩
  · exact ((hagree _ ⟨_, _, _, hpage, rfl⟩).2.1 rfl).1.mpr ⟨"ΣΑ.tera", hpage'.symm ▸ hpage, hsigma⟩
  · exact (hagree _ ⟨_, _, _, htemplate, rfl⟩).2.2 rfl "ΑΣ" .body (htemplate'.symm ▸ htemplate) (by decide +kernel)

/-- A site with one theme, whose name ends in a final sigma. -/
def sigmaTree : FileTree :=
  .directory [("views", .directory [("theme", .directory [("ΑΣ.tera", .file "x".toUTF8)])])]

/-- Discovery finds a theme that the loader does not have. -/
theorem discovered_not_has :
    (∀ scheme entry, Listed sigmaTree.files "views" scheme entry → Path.IsName entry) ∧
      (sigmaTree.files.isDirectory "views").run = true ∧
      ∃ found lib, (discover sigmaTree.files [] "views").run = .ok found ∧
        (loadLibrary sigmaTree.files "views").run = .ok lib ∧
        (Keyed.get? found.1 (reference .theme "ας")).map View.includePath = some "theme/ας.tera" ∧
        lib.has "theme/ας.tera" = false := by
  obtain ⟨found, hdiscover, hview⟩ := exists_ok_of_map (x := (discover sigmaTree.files [] "views").run)
    (g := fun found => (Keyed.get? found.1 (reference .theme "ας")).map View.includePath) (b := some "theme/ας.tera")
    (by decide +kernel)
  obtain ⟨lib, hload, hhas⟩ := exists_ok_of_map (x := (loadLibrary sigmaTree.files "views").run)
    (g := fun lib => lib.has "theme/ας.tera") (b := false) (by decide +kernel)
  exact ⟨isName_of_listing (by decide +kernel), by decide +kernel, found, lib, hdiscover, hload, hview, hhas⟩

end Site

end Folio
