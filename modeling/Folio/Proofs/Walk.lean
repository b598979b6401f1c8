import Folio.Proofs.Lookup
import Folio.Site.Templates

/-!
# The two ways through the views of a site

Discovery and the loader go through the entries that the directories of the schemes list (`Listed`). Discovery finds views by
them (`Found`), and the catalog has nothing else (`registered_of_discoverAll`); the loader reads their files
(`mem_viewFiles`), and the library has nothing else but what is always there (`has_of_loadLibrary`).
-/

namespace Folio

/-! ## Discovery -/

namespace Site

/-- The directory of a scheme lists the entry. -/
def Listed (f : Files Id) (viewsDir : String) (scheme : Scheme) (entry : String) : Prop :=
  (f.isDirectory (Path.join viewsDir scheme.name)).run = true ∧
    ∃ entries, (f.names (Path.join viewsDir scheme.name)).run = .ok entries ∧ entry ∈ entries

/-- An entry of a directory holds a view of a scheme: for themes and pages it is a file with the extension of views, for templates
and wraps a directory. -/
def Eligible (f : Files Id) (scheme : Scheme) (dir entry : String) : Prop :=
  if scheme.isSingleFile then
    (f.isFile (Path.join dir entry)).run = true ∧ (Path.splitExtension entry).2 = some viewExtension
  else (f.isDirectory (Path.join dir entry)).run = true

/-- The directory of a scheme lists an entry that holds a view, whose name is the lowercase form of the entry, that of a file
without its extension. -/
def Found (f : Files Id) (viewsDir : String) (scheme : Scheme) (entry name : String) : Prop :=
  Listed f viewsDir scheme entry ∧ Eligible f scheme (Path.join viewsDir scheme.name) entry ∧
    name = Text.lower (if scheme.isSingleFile then (Path.splitExtension entry).1 else entry)

/-- Discovery has put the view into the catalog. -/
def Registered (f : Files Id) (viewsDir : String) (v : View) : Prop :=
  ∃ scheme entry name, Found f viewsDir scheme entry name ∧ v = .conventional scheme name

variable {f : Files Id} {viewsDir : String} {scheme : Scheme} {entry name : String}

/-- What is known of a result as an option is known of a value that it gives. -/
theorem exists_ok_of_map {ε α β : Type} {x : Except ε α} {g : α → β} {b : β} (h : x.toOption.map g = some b) :
    ∃ v, x = .ok v ∧ g v = b := by
  cases x with
  | error e => cases h
  | ok v => exact ⟨v, rfl, Option.some.inj h⟩

/-- The entries that the directory of a scheme lists. -/
def listing (f : Files Id) (viewsDir : String) (scheme : Scheme) : List String :=
  if (f.isDirectory (Path.join viewsDir scheme.name)).run then
    (f.names (Path.join viewsDir scheme.name)).run.toOption.getD []
  else []

theorem mem_listing_iff : entry ∈ listing f viewsDir scheme ↔ Listed f viewsDir scheme entry := by
  unfold listing Listed
  split
  · rename_i hthere
    rw [and_iff_right hthere]
    cases (f.names (Path.join viewsDir scheme.name)).run with
    | error fault => exact ⟨nofun, nofun⟩
    | ok entries =>
      refine ⟨fun hmem => ⟨entries, rfl, hmem⟩, ?_⟩
      rintro ⟨_, heq, hmem⟩
      cases heq
      exact hmem
  · rename_i hthere
    exact ⟨nofun, fun h => absurd h.1 hthere⟩

instance : Decidable (Listed f viewsDir scheme entry) := decidable_of_iff _ mem_listing_iff

instance {dir : String} : Decidable (Eligible f scheme dir entry) :=
  inferInstanceAs (Decidable (if scheme.isSingleFile then _ ∧ _ else _))

instance : Decidable (Found f viewsDir scheme entry name) := inferInstanceAs (Decidable (_ ∧ _ ∧ _))

/-- Discovery takes exactly the entries that hold a view for one. -/
theorem viewName?_eq_some_iff (dir : String) : (viewName? f scheme dir entry).run = some name ↔
    Eligible f scheme dir entry ∧ name = Text.lower (if scheme.isSingleFile then (Path.splitExtension entry).1 else entry) := by
  unfold viewName? Eligible
  cases scheme.isSingleFile with
  | true =>
    simp only [if_true, Id.run_bind]
    change (if _ then _ else _) = _ ↔ _
    split
    · rename_i hview
      rw [Bool.and_eq_true, decide_eq_true_eq] at hview
      rw [and_iff_right hview, Option.some.injEq, eq_comm]
    · rename_i hview
      rw [Bool.and_eq_true, decide_eq_true_eq] at hview
      exact ⟨nofun, fun h => absurd h.1 hview⟩
  | false =>
    simp only [Bool.false_eq_true, if_false, Id.run_bind]
    change (if _ then _ else _) = _ ↔ _
    split
    · rename_i hview
      rw [and_iff_right hview, Option.some.injEq, eq_comm]
    · rename_i hview
      exact ⟨nofun, fun h => absurd h.1 hview⟩

/-- A directory that is read is read with the entries that are listed. -/
theorem mem_sortedNames {entries : List String} (hdir : (f.isDirectory (Path.join viewsDir scheme.name)).run = true)
    (h : (f.sortedNames (Path.join viewsDir scheme.name)).run = .ok entries) (entry : String) :
    entry ∈ entries ↔ Listed f viewsDir scheme entry := by
  change ((f.names (Path.join viewsDir scheme.name)).run.map fun names => names.mergeSort fun a b => !decide (b < a)) =
    _ at h
  rw [← mem_listing_iff, listing, if_pos hdir]
  cases hnames : (f.names (Path.join viewsDir scheme.name)).run with
  | error fault =>
    rw [hnames] at h
    cases h
  | ok names =>
    rw [hnames] at h
    cases h
    exact List.mem_mergeSort

theorem mem_viewNames (dir : String) (entries : List String) (name : String) :
    name ∈ (viewNames f scheme dir entries).run ↔ ∃ entry ∈ entries, (viewName? f scheme dir entry).run = some name := by
  induction entries with
  | nil => exact ⟨nofun, nofun⟩
  | cons entry rest ih =>
    change name ∈ (viewName? f scheme dir entry).run.toList ++ (viewNames f scheme dir rest).run ↔ _
    rw [List.mem_append, ih, Option.mem_toList]
    simp only [List.mem_cons, exists_eq_or_imp]

/-- The names of a scheme's views are those that its entries are found under. -/
theorem mem_schemeNames {names : List String} (h : (schemeNames f viewsDir scheme).run = .ok names) (name : String) :
    name ∈ names ↔ ∃ entry, Found f viewsDir scheme entry name := by
  by_cases hdir : (f.isDirectory (Path.join viewsDir scheme.name)).run = true
  · cases hentries : (f.sortedNames (Path.join viewsDir scheme.name)).run with
    | error fault =>
      simp only [schemeNames, Id.run_bind, Id.run_pure, hdir, if_true, hentries] at h
      cases h
    | ok entries =>
      simp only [schemeNames, Id.run_bind, Id.run_pure, hdir, if_true, hentries] at h
      cases h
      rw [mem_viewNames]
      exact exists_congr fun entry => and_congr (mem_sortedNames hdir hentries entry) (viewName?_eq_some_iff _)
  · simp only [schemeNames, Id.run_bind, hdir] at h
    cases h
    exact ⟨nofun, fun ⟨entry, hfound⟩ => absurd hfound.1.1 hdir⟩

/-- A catalog with more views has those that it had, and the new ones. -/
theorem get?_foldl_insert {views : List View} {c : Catalog} {key : String} {v : View}
    (h : Keyed.get? (views.foldl Catalog.insert c) key = some v) : Keyed.get? c key = some v ∨ v ∈ views := by
  induction views generalizing c with
  | nil => exact Or.inl h
  | cons first rest ih =>
    rcases ih h with hc | hrest
    · rw [Catalog.insert, Keyed.get?_insert] at hc
      split at hc
      · rw [Option.some.injEq] at hc
        rw [hc]
        exact Or.inr List.mem_cons_self
      · exact Or.inl hc
    · exact Or.inr (List.mem_cons_of_mem _ hrest)

/-- A catalog with more views has the references that it had, and the new ones. -/
theorem hasKey_foldl_insert {views : List View} {c : Catalog} {key : String} :
    Keyed.hasKey (views.foldl Catalog.insert c) key = true ↔
      Keyed.hasKey c key = true ∨ ∃ v ∈ views, key = v.reference := by
  induction views generalizing c with
  | nil => exact ⟨Or.inl, fun h => h.resolve_right fun ⟨_, hv, _⟩ => absurd hv List.not_mem_nil⟩
  | cons first rest ih =>
    rw [List.foldl_cons, ih, Catalog.insert, Keyed.hasKey_insert]
    simp only [List.mem_cons, exists_eq_or_imp]
    rw [or_assoc, or_left_comm]

/-- What discovery does to a catalog: it inserts the views that it finds, one after the other. -/
theorem exists_views_of_discoverAll {schemes : List Scheme} {c : Catalog} {count : Nat} {found : Catalog × Nat}
    (h : (discoverAll f viewsDir schemes (c, count)).run = .ok found) :
    ∃ views : List View, found.1 = views.foldl Catalog.insert c ∧
      ∀ v, v ∈ views ↔ ∃ scheme ∈ schemes, ∃ entry name, Found f viewsDir scheme entry name ∧ v = .conventional scheme name := by
  induction schemes generalizing c count with
  | nil =>
    cases h
    exact ⟨[], rfl, fun v => ⟨nofun, fun ⟨_, hscheme, _⟩ => absurd hscheme List.not_mem_nil⟩⟩
  | cons scheme rest ih =>
    cases hnames : (schemeNames f viewsDir scheme).run with
    | error e =>
      simp only [discoverAll, Id.run_bind, Id.run_pure, hnames] at h
      cases h
    | ok names =>
      simp only [discoverAll, Id.run_bind, hnames] at h
      obtain ⟨views, hviews, hmem⟩ := ih h
      refine ⟨names.map (.conventional scheme) ++ views, by rw [hviews, List.foldl_append, List.foldl_map], fun v => ?_⟩
      simp only [List.mem_append, hmem, List.mem_map, List.mem_cons, exists_eq_or_imp]
      refine or_congr ⟨?_, ?_⟩ Iff.rfl
      · rintro ⟨name, hname, rfl⟩
        obtain ⟨entry, hfound⟩ := (mem_schemeNames hnames name).mp hname
        exact ⟨entry, name, hfound, rfl⟩
      · rintro ⟨entry, name, hfound, rfl⟩
        exact ⟨name, (mem_schemeNames hnames name).mpr ⟨entry, hfound⟩, rfl⟩

/-- A catalog in which views are found has the views that it had, and those that are registered. -/
theorem registered_of_discoverAll {schemes : List Scheme} {c : Catalog} {count : Nat} {found : Catalog × Nat}
    (h : (discoverAll f viewsDir schemes (c, count)).run = .ok found) {key : String} {v : View}
    (hv : Keyed.get? found.1 key = some v) : Keyed.get? c key = some v ∨ Registered f viewsDir v := by
  obtain ⟨views, hviews, hmem⟩ := exists_views_of_discoverAll h
  rw [hviews] at hv
  refine (get?_foldl_insert hv).imp_right fun hview => ?_
  obtain ⟨scheme, -, hregistered⟩ := (hmem v).mp hview
  exact ⟨scheme, hregistered⟩

/-- The references of a catalog in which views are found are those that it had, and those of the views. -/
theorem hasKey_discoverAll {schemes : List Scheme} {c : Catalog} {count : Nat} {found : Catalog × Nat}
    (h : (discoverAll f viewsDir schemes (c, count)).run = .ok found) (key : String) :
    Keyed.hasKey found.1 key = true ↔ Keyed.hasKey c key = true ∨
      ∃ scheme ∈ schemes, ∃ entry name, Found f viewsDir scheme entry name ∧
        key = (View.conventional scheme name).reference := by
  obtain ⟨views, hviews, hmem⟩ := exists_views_of_discoverAll h
  rw [hviews, hasKey_foldl_insert]
  refine or_congr Iff.rfl ⟨?_, ?_⟩
  · rintro ⟨v, hv, rfl⟩
    obtain ⟨scheme, hscheme, entry, name, hfound, rfl⟩ := (hmem v).mp hv
    exact ⟨scheme, hscheme, entry, name, hfound, rfl⟩
  · rintro ⟨scheme, hscheme, entry, name, hfound, rfl⟩
    exact ⟨_, (hmem _).mpr ⟨scheme, hscheme, entry, name, hfound, rfl⟩, rfl⟩

/-! ## The loader -/

theorem mem_regionFiles (viewDir path : String) (regions : List Region) :
    path ∈ (regionFiles f viewsDir viewDir regions).run ↔
      ∃ region ∈ regions, (f.isFile (Path.join viewsDir (Path.join viewDir region.fileName))).run = true ∧
        path = Path.join viewDir region.fileName := by
  induction regions with
  | nil => exact ⟨nofun, nofun⟩
  | cons region rest ih =>
    simp only [List.mem_cons, exists_eq_or_imp, ← ih]
    simp only [regionFiles, Id.run_bind, Id.run_pure]
    by_cases hfile : (f.isFile (Path.join viewsDir (Path.join viewDir region.fileName))).run = true
    · rw [if_pos hfile, List.mem_cons]
      exact or_congr (and_iff_right hfile).symm Iff.rfl
    · rw [if_neg hfile]
      exact ⟨Or.inr, fun h => h.resolve_left fun hfirst => hfile hfirst.1⟩

/-- The file of an entry of a theme or a page is its own. -/
theorem mem_entryFiles_file (hfile : scheme.isSingleFile = true) (entry path : String) :
    path ∈ (entryFiles f viewsDir scheme entry).run ↔
      ((f.isFile (Path.join viewsDir (Path.join scheme.name entry))).run = true ∧
        (Path.splitExtension entry).2 = some viewExtension) ∧ path = Path.join scheme.name entry := by
  simp only [entryFiles, Id.run_bind, Id.run_pure, hfile, if_true]
  split
  · rename_i hload
    rw [Bool.and_eq_true, decide_eq_true_eq] at hload
    rw [List.mem_singleton, and_iff_right hload]
  · rename_i hload
    rw [Bool.and_eq_true, decide_eq_true_eq] at hload
    exact ⟨nofun, fun h => absurd h.1 hload⟩

/-- The files of an entry of a template or a wrap are those of its regions. -/
theorem mem_entryFiles_directory (hdirectory : scheme.isSingleFile = false) (entry path : String) :
    path ∈ (entryFiles f viewsDir scheme entry).run ↔
      (f.isDirectory (Path.join viewsDir (Path.join scheme.name entry))).run = true ∧ ∃ region ∈ Region.ofTemplate,
        (f.isFile (Path.join viewsDir (Path.join (Path.join scheme.name entry) region.fileName))).run = true ∧
          path = Path.join (Path.join scheme.name entry) region.fileName := by
  rw [← mem_regionFiles]
  simp only [entryFiles, Id.run_bind, hdirectory, Bool.false_eq_true, if_false]
  split
  · rename_i hthere
    rw [and_iff_right hthere]
  · rename_i hthere
    exact ⟨nofun, fun h => absurd h.1 hthere⟩

theorem mem_entriesFiles (entries : List String) (path : String) :
    path ∈ (entriesFiles f viewsDir scheme entries).run ↔
      ∃ entry ∈ entries, path ∈ (entryFiles f viewsDir scheme entry).run := by
  induction entries with
  | nil => exact ⟨nofun, nofun⟩
  | cons entry rest ih =>
    simp only [List.mem_cons, exists_eq_or_imp, ← ih]
    simp only [entriesFiles, Id.run_bind, Id.run_pure, List.mem_append]

/-- The files that are loaded are those of the entries that are listed. -/
theorem mem_viewFiles {schemes : List Scheme} {paths : List String} (h : (viewFiles f viewsDir schemes).run = .ok paths)
    (path : String) : path ∈ paths ↔
      ∃ scheme ∈ schemes, ∃ entry, Listed f viewsDir scheme entry ∧ path ∈ (entryFiles f viewsDir scheme entry).run := by
  induction schemes generalizing paths with
  | nil =>
    cases h
    exact ⟨nofun, nofun⟩
  | cons scheme rest ih =>
    simp only [List.mem_cons, exists_eq_or_imp]
    by_cases hdir : (f.isDirectory (Path.join viewsDir scheme.name)).run = true
    · cases hentries : (f.sortedNames (Path.join viewsDir scheme.name)).run with
      | error fault =>
        simp only [viewFiles, Id.run_bind, Id.run_pure, hdir, if_true, hentries] at h
        cases h
      | ok entries =>
        simp only [viewFiles, Id.run_bind, Id.run_pure, hdir, if_true, hentries] at h
        cases hothers : (viewFiles f viewsDir rest).run with
        | error e =>
          rw [hothers] at h
          cases h
        | ok others =>
          rw [hothers] at h
          cases h
          rw [List.mem_append, ih hothers, mem_entriesFiles]
          refine or_congr (exists_congr fun entry => and_congr (mem_sortedNames hdir hentries entry) Iff.rfl) Iff.rfl
    · simp only [viewFiles, Id.run_bind, hdir] at h
      rw [ih h]
      exact ⟨Or.inr, fun hor => hor.resolve_left fun ⟨entry, hlisted, _⟩ => hdir hlisted.1⟩

theorem keys_of_readTemplates {paths : List String} {texts : List (String × String)}
    (h : (readTemplates f viewsDir paths).run = .ok texts) : texts.map Prod.fst = paths.map templateName := by
  induction paths generalizing texts with
  | nil =>
    cases h
    rfl
  | cons path rest ih =>
    cases htext : (f.readText (Path.join viewsDir path)).run with
    | error fault =>
      simp only [readTemplates, Id.run_bind, Id.run_pure, htext] at h
      cases h
    | ok text =>
      simp only [readTemplates, Id.run_bind, Id.run_pure, htext] at h
      cases hothers : (readTemplates f viewsDir rest).run with
      | error e =>
        rw [hothers] at h
        cases h
      | ok others =>
        rw [hothers] at h
        cases h
        rw [List.map_cons, List.map_cons, ih hothers]

/-- What the library of a site has: the names of its files, and those of the templates that are always there. -/
theorem has_of_loadLibrary {engine : Engine} {output : Engine.Output} (hengine : engine.Lawful output) {lib : Library}
    (hdir : (f.isDirectory viewsDir).run = true)
    (h : (loadLibrary f viewsDir engine).run = .ok lib) (path : String) :
    lib.has path = true ↔ templateName path ∈ Library.builtinTexts.map Prod.fst ∨
      ∃ scheme entry p, Listed f viewsDir scheme entry ∧ p ∈ (entryFiles f viewsDir scheme entry).run ∧
        templateName (templateName p) = templateName path := by
  cases hpaths : (viewFiles f viewsDir Scheme.all).run with
  | error e =>
    simp only [loadLibrary, Id.run_bind, Id.run_pure, hdir, if_true, hpaths] at h
    cases h
  | ok paths =>
    cases htexts : (readTemplates f viewsDir paths).run with
    | error e =>
      simp only [loadLibrary, Id.run_bind, Id.run_pure, hdir, if_true, hpaths, htexts] at h
      cases h
    | ok texts =>
      simp only [loadLibrary, Id.run_bind, Id.run_pure, hdir, if_true, hpaths, htexts] at h
      have hlib : Library.ofTexts texts engine = .ok lib := by
        revert h
        cases Library.ofTexts texts engine with
        | error e => exact nofun
        | ok l => exact fun h => congrArg Except.ok (Except.ok.inj h)
      rw [Library.has_ofTexts hengine hlib, keys_of_readTemplates htexts]
      refine or_congr Iff.rfl ⟨?_, ?_⟩
      · rintro ⟨q, hq, heq⟩
        obtain ⟨p, hp, rfl⟩ := List.mem_map.mp hq
        obtain ⟨scheme, -, entry, hlisted, hfile⟩ := (mem_viewFiles hpaths p).mp hp
        exact ⟨scheme, entry, p, hlisted, hfile, heq⟩
      · rintro ⟨scheme, entry, p, hlisted, hfile, heq⟩
        have hp := (mem_viewFiles hpaths p).mpr ⟨scheme, scheme.mem_all, entry, hlisted, hfile⟩
        exact ⟨templateName p, List.mem_map_of_mem hp, heq⟩

end Site

end Folio
