import Folio.Proofs.Discovery
import Folio.Proofs.Naming
import Folio.Proofs.Overlay

/-!
# The layers of a catalog

The catalog of a site is laid down in three layers: the wraps that are always there, the views that are found, and the
declarations of the manifest. What stands under a reference depends on nothing but what the first two layers have there and the
declarations of that reference (`get?_foldl_declared`): a view that is found or begun in the usual place, with the declarations
laid over it, of which the last place counts and the last value of each parameter (`overlaid`). So a manifest can be laid down
in parts, and laying it down again changes nothing (`foldl_declared_twice`). A declaration that cannot be used ends the layer
behind those before it (`declareAll_of_unusable`). `loadCatalog_layers` puts this together.
-/

namespace Folio

/-- The reference of the view that is declared. -/
def ViewEntry.reference (e : ViewEntry) : String :=
  Folio.reference e.scheme (Catalog.declaredName e)

/-- Every directory can be read. -/
def Files.Readable (f : Files Id) : Prop :=
  ∀ path, (f.isDirectory path).run = true → ∃ names, (f.names path).run = .ok names

/-- The directories of a tree can be read. -/
theorem FileTree.readable_files (t : FileTree) : t.files.Readable := by
  intro path hdir
  change decide ((t.find path).toOption.map kind = some .directory) = true at hdir
  rw [decide_eq_true_eq] at hdir
  change ∃ names, t.names path = .ok names
  unfold names
  revert hdir
  rcases t.find path with e | content | entries
  · exact nofun
  · exact nofun
  · exact fun _ => ⟨_, rfl⟩

namespace Catalog

/-- The declarations of the view of a reference, in order. -/
def declarationsOf (key : String) (entries : List ViewEntry) : List ViewEntry :=
  entries.filter fun e => e.reference = key

/-- Every declaration can be used. -/
def Declarable (entries : List ViewEntry) : Prop :=
  ∀ e ∈ entries, usableName (declaredName e) = true

/-- The view that a declaration is laid over: the one that is there, or a new one in the usual place. -/
def base (v? : Option View) (e : ViewEntry) : View :=
  v?.getD (.conventional e.scheme (declaredName e))

/-- The catalog with one usable declaration put over the view of its name. -/
def declared (c : Catalog) (e : ViewEntry) : Catalog :=
  Keyed.insert c e.reference (overlay (base (Keyed.get? c e.reference) e) e)

/-- A view with some declarations laid over it: the last place that is given counts, and the last value of each parameter. -/
def overlaid (v : View) (entries : List ViewEntry) : View :=
  { v with
    includePath := (entries.filterMap ViewEntry.includePath).getLast?.getD v.includePath
    parameters := Keyed.extend v.parameters (entries.flatMap ViewEntry.parameters) }

/-- What stands under a reference when its declarations are laid over what was there. -/
def layered (v? : Option View) : List ViewEntry → Option View
  | [] => v?
  | e :: rest => some (overlaid (base v? e) (e :: rest))

variable {c : Catalog} {e : ViewEntry} {entries : List ViewEntry} {key : String}

/-! ## One declaration after the other -/

theorem Declarable.cons (h : Declarable (e :: entries)) : usableName (declaredName e) = true ∧ Declarable entries :=
  ⟨h e List.mem_cons_self, fun e' he' => h e' (List.mem_cons_of_mem _ he')⟩

theorem declare_of_usable (h : usableName (declaredName e) = true) : c.declare e = .ok (c.declared e) := by
  unfold declare
  dsimp only
  rw [if_pos h]
  rfl

theorem declare_of_unusable (h : usableName (declaredName e) = false) : c.declare e = .error (.invalidName e.name) := by
  unfold declare
  dsimp only
  rw [h, if_neg Bool.false_ne_true]

theorem declareAll_of_ok {d : Catalog} (h : c.declare e = .ok d) (rest : List ViewEntry) :
    c.declareAll (e :: rest) = d.declareAll rest := by
  rw [declareAll.eq_def]
  dsimp only
  rw [h]

theorem declareAll_of_error {err : CatalogError} (h : c.declare e = .error err) (rest : List ViewEntry) :
    c.declareAll (e :: rest) = (c, some err) := by
  rw [declareAll.eq_def]
  dsimp only
  rw [h]

/-- Usable declarations are all laid down. -/
theorem declareAll_of_usable (h : Declarable entries) : c.declareAll entries = (entries.foldl declared c, none) := by
  induction entries generalizing c with
  | nil => rfl
  | cons e rest ih =>
    rw [declareAll_of_ok (declare_of_usable h.cons.1), ih h.cons.2]
    rfl

/-- The first declaration that cannot be used ends the layer behind those before it. -/
theorem declareAll_of_unusable {front : List ViewEntry} (hfront : Declarable front)
    (he : usableName (declaredName e) = false) (back : List ViewEntry) :
    c.declareAll (front ++ e :: back) = ((c.declareAll front).1, some (.invalidName e.name)) := by
  induction front generalizing c with
  | nil => exact declareAll_of_error (declare_of_unusable he) back
  | cons first rest ih =>
    have hfirst : c.declare first = .ok (c.declared first) := declare_of_usable hfront.cons.1
    rw [List.cons_append, declareAll_of_ok hfirst, declareAll_of_ok hfirst, ih hfront.cons.2]

theorem get?_declared (c : Catalog) (e : ViewEntry) (key : String) :
    Keyed.get? (c.declared e) key =
      if e.reference = key then some (overlay (base (Keyed.get? c key) e) e) else Keyed.get? c key := by
  unfold declared
  rw [Keyed.get?_insert]
  by_cases h : e.reference = key
  · rw [if_pos h, if_pos h.symm, h]
  · rw [if_neg h, if_neg (Ne.symm h)]

/-! ## All declarations of a reference -/

theorem overlaid_cons (v : View) (e : ViewEntry) (rest : List ViewEntry) :
    overlaid v (e :: rest) = overlaid (overlay v e) rest := by
  unfold overlaid overlay
  rw [List.flatMap_cons, Keyed.extend_append]
  cases hpath : e.includePath with
  | none => rw [List.filterMap_cons_none hpath, Option.getD_none]
  | some path =>
    rw [List.filterMap_cons_some hpath, List.getLast?_cons, Option.getD_some]
    rfl

/-- The next declaration is laid over what is there, and the others over that. -/
theorem layered_cons (v? : Option View) (e : ViewEntry) (rest : List ViewEntry) :
    layered v? (e :: rest) = layered (some (overlay (base v? e) e)) rest := by
  have hcons := overlaid_cons (base v? e) e rest
  cases rest with
  | nil => exact congrArg some hcons
  | cons e' rest => exact congrArg some hcons

/-- What stands under a reference depends on what was there and on the declarations of that reference. -/
theorem get?_foldl_declared (entries : List ViewEntry) (c : Catalog) (key : String) :
    Keyed.get? (entries.foldl declared c) key = layered (Keyed.get? c key) (declarationsOf key entries) := by
  induction entries generalizing c with
  | nil => rfl
  | cons e rest ih =>
    rw [List.foldl_cons, ih, get?_declared]
    unfold declarationsOf
    by_cases h : e.reference = key
    · rw [if_pos h, List.filter_cons_of_pos (by simpa using h), layered_cons]
    · rw [if_neg h, List.filter_cons_of_neg (by simpa using h)]

/-- Declarations that are laid over a view a second time change nothing. -/
theorem overlaid_overlaid (v : View) (entries : List ViewEntry) :
    overlaid (overlaid v entries) entries = overlaid v entries := by
  unfold overlaid
  dsimp only
  rw [Keyed.extend_extend fun _ h => h]
  cases (entries.filterMap ViewEntry.includePath).getLast? <;> rfl

theorem layered_layered (v? : Option View) (entries : List ViewEntry) :
    layered (layered v? entries) entries = layered v? entries := by
  cases entries with
  | nil => rfl
  | cons e rest => exact congrArg some (overlaid_overlaid _ _)

theorem isSome_layered (v? : Option View) (entries : List ViewEntry) :
    (layered v? entries).isSome = true ↔ v?.isSome = true ∨ entries ≠ [] := by
  cases entries with
  | nil => exact ⟨Or.inl, fun h => h.resolve_right fun hne => hne rfl⟩
  | cons e rest => exact ⟨fun _ => Or.inr (List.cons_ne_nil _ _), fun _ => rfl⟩

/-- The references of the declarations are added to a catalog. -/
theorem hasKey_foldl_declared (entries : List ViewEntry) (c : Catalog) (key : String) :
    Keyed.hasKey (entries.foldl declared c) key = true ↔
      Keyed.hasKey c key = true ∨ ∃ e ∈ entries, e.reference = key := by
  unfold Keyed.hasKey
  rw [get?_foldl_declared, isSome_layered]
  refine or_congr Iff.rfl ?_
  unfold declarationsOf
  rw [ne_eq, List.filter_eq_nil_iff]
  simp

theorem ordered_foldl_declared (h : Keyed.Ordered c) (entries : List ViewEntry) :
    Keyed.Ordered (entries.foldl declared c) :=
  List.foldlRecOn entries declared h fun _ hc _ _ => hc.insert _ _

/-- Declarations that are laid down a second time change nothing. -/
theorem foldl_declared_twice (h : Keyed.Ordered c) (entries : List ViewEntry) :
    entries.foldl declared (entries.foldl declared c) = entries.foldl declared c := by
  have hlaid := ordered_foldl_declared h entries
  refine Keyed.Ordered.ext (ordered_foldl_declared hlaid entries) hlaid fun key => ?_
  rw [get?_foldl_declared, get?_foldl_declared, layered_layered]

end Catalog

namespace Site

open Catalog (declarationsOf layered Declarable)

variable {f : Files Id} {viewsDir : String} {scheme : Scheme} {name : String} {entries : List ViewEntry}

/-! ## The first two layers -/

/-- A site has a view of this scheme and name: it is one of the wraps that are always there, or it is found, or declared. -/
def Supplies (f : Files Id) (viewsDir : String) (entries : List ViewEntry) (scheme : Scheme) (name : String) : Prop :=
  (scheme = .wrap ∧ name ∈ Catalog.builtinWraps) ∨ (∃ entry, Found f viewsDir scheme entry name) ∨
    ∃ e ∈ entries, e.scheme = scheme ∧ Catalog.declaredName e = name

theorem Supplies.lower_name (h : Supplies f viewsDir entries scheme name) : Text.lower name = name := by
  rcases h with ⟨-, hname⟩ | ⟨entry, hfound⟩ | ⟨e, -, -, rfl⟩
  · have hlower : ∀ name ∈ Catalog.builtinWraps, Text.lower name = name := by decide +kernel
    exact hlower name hname
  · exact hfound.lower_name
  · exact Text.lower_lower _

/-- The reference is that of a view which the site has. -/
def SuppliesReference (f : Files Id) (viewsDir : String) (entries : List ViewEntry) (key : String) : Prop :=
  ∃ scheme name, Supplies f viewsDir entries scheme name ∧ key = reference scheme name

theorem suppliesReference_iff (key : String) : SuppliesReference f viewsDir entries key ↔
    SuppliesReference f viewsDir [] key ∨ ∃ e ∈ entries, e.reference = key := by
  constructor
  · rintro ⟨scheme, name, hbuiltin | hfound | ⟨e, he, rfl, rfl⟩, rfl⟩
    · exact Or.inl ⟨scheme, name, Or.inl hbuiltin, rfl⟩
    · exact Or.inl ⟨scheme, name, Or.inr (Or.inl hfound), rfl⟩
    · exact Or.inr ⟨e, he, rfl⟩
  · rintro (⟨scheme, name, hbuiltin | hfound | ⟨e, he, -⟩, rfl⟩ | ⟨e, he, rfl⟩)
    · exact ⟨scheme, name, Or.inl hbuiltin, rfl⟩
    · exact ⟨scheme, name, Or.inr (Or.inl hfound), rfl⟩
    · cases he
    · exact ⟨e.scheme, Catalog.declaredName e, Or.inr (Or.inr ⟨e, he, rfl, rfl⟩), rfl⟩

/-- The view of a reference, as it is without any declaration: the site has it, it lies in the usual place, and nothing is given
to it. -/
structure Plain (f : Files Id) (viewsDir : String) (entries : List ViewEntry) (key : String) (v : View) : Prop where
  reference : v.reference = key
  supplies : Supplies f viewsDir entries v.scheme v.name
  includePath : v.includePath = defaultIncludePath v.scheme v.name
  parameters : v.parameters = []

theorem plain_conventional (h : Supplies f viewsDir entries scheme name) :
    Plain f viewsDir entries (reference scheme name) (.conventional scheme name) := by
  have hname : (View.conventional scheme name).name = name := h.lower_name
  refine ⟨?_, ?_, ?_, rfl⟩
  · unfold View.reference
    rw [hname]
    rfl
  · rw [hname]
    exact h
  · rw [hname]
    rfl

theorem Plain.mono {v : View} {key : String} (h : Plain f viewsDir [] key v) (entries : List ViewEntry) :
    Plain f viewsDir entries key v := by
  refine { h with supplies := ?_ }
  rcases h.supplies with hbuiltin | hfound | ⟨e, he, -⟩
  · exact Or.inl hbuiltin
  · exact Or.inr (Or.inl hfound)
  · cases he

theorem schemeNames_ok (hreadable : f.Readable) (viewsDir : String) (scheme : Scheme) :
    ∃ names, (schemeNames f viewsDir scheme).run = .ok names := by
  by_cases hdir : (f.isDirectory (Path.join viewsDir scheme.name)).run = true
  · obtain ⟨names, hnames⟩ := hreadable _ hdir
    have hsorted : (f.sortedNames (Path.join viewsDir scheme.name)).run =
        .ok (names.mergeSort fun a b => !decide (b < a)) := by
      simp only [Files.sortedNames, Id.run_bind, Id.run_pure, hnames]
      rfl
    simp only [schemeNames, Id.run_bind, Id.run_pure, hdir, if_true, hsorted]
    exact ⟨_, rfl⟩
  · simp only [schemeNames, Id.run_bind, hdir]
    exact ⟨_, rfl⟩

/-- Where directories can be read, views are discovered. -/
theorem discoverAll_ok (hreadable : f.Readable) (viewsDir : String) (schemes : List Scheme) (start : Catalog × Nat) :
    ∃ found, (discoverAll f viewsDir schemes start).run = .ok found := by
  induction schemes generalizing start with
  | nil => exact ⟨start, rfl⟩
  | cons scheme rest ih =>
    obtain ⟨names, hnames⟩ := schemeNames_ok hreadable viewsDir scheme
    simp only [discoverAll, Id.run_bind, hnames]
    exact ih _

/-- The wraps that are always there are inserted one after the other. -/
theorem builtins_eq : Catalog.builtins = (Catalog.builtinWraps.map (View.conventional .wrap)).foldl Catalog.insert [] :=
  List.foldl_map.symm

theorem ordered_builtins : Keyed.Ordered Catalog.builtins :=
  List.foldlRecOn Catalog.builtinWraps (fun c name => Catalog.insert c (.conventional .wrap name))
    (motive := Keyed.Ordered) List.Pairwise.nil fun _ hc _ _ => hc.insert _ _

section Discovered

variable {found : Catalog × Nat} (hfound : (discover f Catalog.builtins viewsDir).run = .ok found)
include hfound

theorem ordered_discover : Keyed.Ordered found.1 := by
  obtain ⟨views, hviews, -⟩ := exists_views_of_discoverAll hfound
  rw [hviews]
  exact List.foldlRecOn views Catalog.insert (motive := Keyed.Ordered) ordered_builtins fun _ hc _ _ => hc.insert _ _

/-- The first two layers have the views that are always there and those that are found. -/
theorem hasKey_discover (key : String) :
    Keyed.hasKey found.1 key = true ↔ SuppliesReference f viewsDir [] key := by
  rw [hasKey_discoverAll hfound, builtins_eq, hasKey_foldl_insert]
  constructor
  · rintro ((hnone | ⟨v, hv, rfl⟩) | ⟨scheme, -, entry, name, hentry, rfl⟩)
    · cases hnone
    · obtain ⟨name, hname, rfl⟩ := List.mem_map.mp hv
      have hsupplies : Supplies f viewsDir [] .wrap name := Or.inl ⟨rfl, hname⟩
      exact ⟨.wrap, name, hsupplies, (plain_conventional hsupplies).reference⟩
    · have hsupplies : Supplies f viewsDir [] scheme name := Or.inr (Or.inl ⟨entry, hentry⟩)
      exact ⟨scheme, name, hsupplies, (plain_conventional hsupplies).reference⟩
  · rintro ⟨scheme, name, hsupplies, rfl⟩
    rw [← (plain_conventional hsupplies).reference]
    rcases hsupplies with ⟨rfl, hname⟩ | ⟨entry, hentry⟩ | ⟨e, he, -⟩
    · exact Or.inl (Or.inr ⟨_, List.mem_map_of_mem hname, rfl⟩)
    · exact Or.inr ⟨scheme, scheme.mem_all, entry, name, hentry, rfl⟩
    · cases he

theorem plain_of_discover {key : String} {v : View} (hv : Keyed.get? found.1 key = some v) :
    Plain f viewsDir [] key v := by
  obtain ⟨hkey, -⟩ := (Catalog.built_builtins.discover hfound).filed key v hv
  have hplain : ∃ scheme name, Supplies f viewsDir [] scheme name ∧ v = .conventional scheme name := by
    rcases registered_of_discoverAll hfound hv with hbuiltin | ⟨scheme, entry, name, hentry, rfl⟩
    · rw [builtins_eq] at hbuiltin
      rcases get?_foldl_insert hbuiltin with hnone | hmem
      · cases hnone
      · obtain ⟨name, hname, rfl⟩ := List.mem_map.mp hmem
        exact ⟨.wrap, name, Or.inl ⟨rfl, hname⟩, rfl⟩
    · exact ⟨scheme, name, Or.inr (Or.inl ⟨entry, hentry⟩), rfl⟩
  obtain ⟨scheme, name, hsupplies, rfl⟩ := hplain
  have h := plain_conventional hsupplies
  rwa [← h.reference, ← hkey] at h

/-- The declarations of a reference are laid over a view in the usual place, to which nothing is given. -/
theorem plain_base {key : String} {e : ViewEntry} (he : e ∈ declarationsOf key entries) :
    Plain f viewsDir entries key (Catalog.base (Keyed.get? found.1 key) e) := by
  obtain ⟨hmem, hkey⟩ := List.mem_filter.mp he
  rw [decide_eq_true_eq] at hkey
  unfold Catalog.base
  cases hget : Keyed.get? found.1 key with
  | none =>
    rw [← hkey]
    exact plain_conventional (Or.inr (Or.inr ⟨e, hmem, rfl, rfl⟩))
  | some v => exact (plain_of_discover hfound hget).mono entries

/-- A view with its declarations laid over it lies where the last of them says, or else in the usual place, and has the parameters
of all of them. -/
theorem view_of_layered {key : String} {v : View}
    (hv : layered (Keyed.get? found.1 key) (declarationsOf key entries) = some v) :
    v.reference = key ∧ Supplies f viewsDir entries v.scheme v.name ∧
      v.includePath = ((declarationsOf key entries).filterMap ViewEntry.includePath).getLast?.getD
        (defaultIncludePath v.scheme v.name) ∧
      v.parameters = Keyed.ofEntries ((declarationsOf key entries).flatMap ViewEntry.parameters) := by
  cases hentries : declarationsOf key entries with
  | nil =>
    rw [hentries] at hv
    have hplain := (plain_of_discover hfound hv).mono entries
    exact ⟨hplain.reference, hplain.supplies, hplain.includePath, hplain.parameters⟩
  | cons e rest =>
    have hplain : Plain f viewsDir entries key (Catalog.base (Keyed.get? found.1 key) e) :=
      plain_base hfound (hentries ▸ List.mem_cons_self)
    rw [hentries, layered, Option.some.injEq] at hv
    rw [← hv]
    refine ⟨hplain.reference, hplain.supplies, ?_, ?_⟩
    · exact congrArg (Option.getD _) hplain.includePath
    · exact congrArg (Keyed.extend · _) hplain.parameters

end Discovered

/-! ## The catalog of a site -/

theorem loadCatalog_of_discover {site : String} {found : Catalog × Nat} (manifest : Manifest)
    (hdir : (f.isDirectory (viewsPath site)).run = true)
    (hfound : (discover f Catalog.builtins (viewsPath site)).run = .ok found) :
    (loadCatalog f site manifest).run =
      match found.1.declareAll manifest.views with
      | (c, none) => .ok c
      | (_, some e) => .error (.catalog e) := by
  simp only [loadCatalog, Id.run_bind, hdir, if_true, hfound]
  rcases Catalog.declareAll found.1 manifest.views with ⟨c, _ | e⟩ <;> rfl

/-- The layers of a site whose directories can be read. If every declaration can be used, the site has a catalog: it has the
references of the wraps that are always there, of the views that are found and of those that are declared. What stands under a
reference is what the first two layers have there with its declarations laid over it, and so what they have if there are none. A
view lies where its last declaration with a place says, or else in the usual place of its own scheme and name, and its parameters
are those of its declarations, of which the later count. The declarations change nothing a second time, and they can be laid
down in two parts. The first declaration that cannot be used is what is wrong with the manifest, and the catalog is then left
with those before it. -/
theorem loadCatalog_layers (f : Files Id) (site : String) (manifest : Manifest) (hreadable : f.Readable)
    (hdir : (f.isDirectory (viewsPath site)).run = true) :
    ∃ found, (discover f Catalog.builtins (viewsPath site)).run = .ok found ∧
      (Declarable manifest.views →
        ∃ c, (loadCatalog f site manifest).run = .ok c ∧
          (∀ key, Keyed.hasKey c key = true ↔ SuppliesReference f (viewsPath site) manifest.views key) ∧
          (∀ key, Keyed.get? c key = layered (Keyed.get? found.1 key) (declarationsOf key manifest.views)) ∧
          (∀ key, (∀ e ∈ manifest.views, e.reference ≠ key) → Keyed.get? c key = Keyed.get? found.1 key) ∧
          (∀ key v, Keyed.get? c key = some v →
            v.reference = key ∧ Supplies f (viewsPath site) manifest.views v.scheme v.name ∧
            v.includePath = ((declarationsOf key manifest.views).filterMap ViewEntry.includePath).getLast?.getD
              (defaultIncludePath v.scheme v.name) ∧
            v.parameters = Keyed.ofEntries ((declarationsOf key manifest.views).flatMap ViewEntry.parameters) ∧
            ∀ name, Keyed.get? v.parameters name =
              Keyed.get? ((declarationsOf key manifest.views).flatMap ViewEntry.parameters).reverse name) ∧
          c.declareAll manifest.views = (c, none)) ∧
      (∀ (start : Catalog) (front back : List ViewEntry), Declarable (front ++ back) →
        start.declareAll (front ++ back) = (start.declareAll front).1.declareAll back ∧
          (start.declareAll (front ++ back)).2 = none) ∧
      (∀ (start : Catalog) (front : List ViewEntry) (e : ViewEntry) (back : List ViewEntry), Declarable front →
        Catalog.usableName (Catalog.declaredName e) = false →
        start.declareAll (front ++ e :: back) = ((start.declareAll front).1, some (.invalidName e.name)) ∧
          (manifest.views = front ++ e :: back →
            (loadCatalog f site manifest).run = .error (.catalog (.invalidName e.name)))) := by
  obtain ⟨found, hfound⟩ := discoverAll_ok hreadable (viewsPath site) Scheme.all (Catalog.builtins, 0)
  refine ⟨found, hfound, ?_, ?_, ?_⟩
  · intro hdeclarable
    have hload := loadCatalog_of_discover manifest hdir hfound
    rw [Catalog.declareAll_of_usable hdeclarable] at hload
    have hget := Catalog.get?_foldl_declared manifest.views found.1
    refine ⟨_, hload, ?_, hget, ?_, ?_, ?_⟩
    · intro key
      rw [Catalog.hasKey_foldl_declared, hasKey_discover hfound]
      exact (suppliesReference_iff key).symm
    · intro key hnone
      have hempty : declarationsOf key manifest.views = [] :=
        List.filter_eq_nil_iff.mpr fun e he => by simpa using hnone e he
      rw [hget, hempty]
      rfl
    · intro key v hv
      obtain ⟨hreference, hsupplies, hpath, hparameters⟩ := view_of_layered hfound (hget key ▸ hv)
      refine ⟨hreference, hsupplies, hpath, hparameters, fun name => ?_⟩
      rw [hparameters, Keyed.ofEntries, Keyed.get?_extend]
      exact Option.or_none
    · rw [Catalog.declareAll_of_usable hdeclarable, Catalog.foldl_declared_twice (ordered_discover hfound)]
  · intro start front back hdeclarable
    have hfront : Declarable front := fun e he => hdeclarable e (List.mem_append_left _ he)
    have hback : Declarable back := fun e he => hdeclarable e (List.mem_append_right _ he)
    rw [Catalog.declareAll_of_usable hdeclarable, Catalog.declareAll_of_usable hfront, Catalog.declareAll_of_usable hback,
      List.foldl_append]
    exact ⟨rfl, rfl⟩
  · intro start front e back hfront he
    refine ⟨Catalog.declareAll_of_unusable hfront he back, fun hviews => ?_⟩
    rw [loadCatalog_of_discover manifest hdir hfound, hviews, Catalog.declareAll_of_unusable hfront he back]

/-- A site with two pages. -/
def twoPageTree : FileTree :=
  .directory [("site", .directory [("views", .directory [
    ("page", .directory [("About.tera", .file "y".toUTF8), ("Home.tera", .file "x".toUTF8)])])])]

/-- A manifest that declares one of the pages twice, under two spellings of its name, and a template that is not among the
files. -/
def spelledManifest : Manifest where
  views := [
    { scheme := .page, name := " HOME", includePath := some "page/start.tera", parameters := [("a", .text "x"), ("b", .text "x")] },
    { scheme := .template, name := "List" },
    { scheme := .page, name := "home", parameters := [("b", .text "y")] }]

/-- `loadCatalog_layers` of a page that is declared twice, one that is only found, and a template that is only declared. -/
theorem loadCatalog_layers_spelled :
    ∃ c v w, (loadCatalog twoPageTree.files "site" spelledManifest).run = .ok c ∧
      Keyed.get? c (reference .page "home") = some v ∧ v.includePath = "page/start.tera" ∧
      v.textParameter? "a" = some "x" ∧ v.textParameter? "b" = some "y" ∧
      Keyed.get? c (reference .page "about") = some w ∧ w.includePath = defaultIncludePath w.scheme w.name ∧ w.parameters = [] ∧
      Keyed.hasKey c (reference .template "list") = true ∧
      c.declareAll spelledManifest.views = (c, none) := by
  have hdeclarable : Declarable spelledManifest.views := by
    unfold Declarable
    decide +kernel
  obtain ⟨found, -, hcatalog, -⟩ :=
    loadCatalog_layers twoPageTree.files "site" spelledManifest twoPageTree.readable_files (by decide +kernel)
  obtain ⟨c, hload, hkeys, -, -, hviews, htwice⟩ := hcatalog hdeclarable
  have hhome : Keyed.hasKey c (reference .page "home") = true :=
    (hkeys _).mpr ⟨.page, "home", Or.inr (Or.inl ⟨"Home.tera", by decide +kernel⟩), rfl⟩
  have habout : Keyed.hasKey c (reference .page "about") = true :=
    (hkeys _).mpr ⟨.page, "about", Or.inr (Or.inl ⟨"About.tera", by decide +kernel⟩), rfl⟩
  have htemplate : Keyed.hasKey c (reference .template "list") = true :=
    (hkeys _).mpr ⟨.template, "list", Or.inr (Or.inr (by decide +kernel)), rfl⟩
  obtain ⟨v, hv⟩ := Option.isSome_iff_exists.mp hhome
  obtain ⟨w, hw⟩ := Option.isSome_iff_exists.mp habout
  obtain ⟨-, -, hpath, hparameters, -⟩ := hviews _ v hv
  obtain ⟨-, -, hpath', hparameters', -⟩ := hviews _ w hw
  have hlast : ((declarationsOf (reference .page "home") spelledManifest.views).filterMap ViewEntry.includePath).getLast? =
      some "page/start.tera" := by decide +kernel
  have hfoundOnly : declarationsOf (reference .page "about") spelledManifest.views = [] := by decide +kernel
  rw [hfoundOnly] at hpath' hparameters'
  refine ⟨c, v, w, hload, hv, ?_, ?_, ?_, hw, hpath', hparameters', htemplate, htwice⟩
  · rw [hpath, hlast, Option.getD_some]
  · unfold View.textParameter?
    rw [hparameters]
    decide +kernel
  · unfold View.textParameter?
    rw [hparameters]
    decide +kernel

end Site

end Folio
