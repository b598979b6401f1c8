import Folio.Proofs.Capital
import Folio.Proofs.Walk
import Folio.Render.Resolve

/-!
# The view of a name

A catalog keeps its views by reference, and a reference tells of a name only the capital form (`reference_eq_iff`). `Built`
are the catalogs that come from inserting, discovering and declaring views, that of a site among them (`built_of_loadCatalog`).
What is asked of them by a scheme and a name is answered by a view of that scheme whose name has the same plain form
(`Filed.answers`), and nothing more can be said (`view_of_slot`): the name need not be the one that was asked for
(`slot_of_two_names`).
-/

namespace Folio

open Text (lower plain)

/-! ## References -/

theorem take_reference (scheme : Scheme) (name : String) :
    (reference scheme name).toList.take 3 = scheme.title.toList.take 3 := by
  have hlen : 3 ≤ scheme.title.toList.length := by cases scheme <;> decide
  unfold reference
  rw [String.append_assoc, String.append_assoc, String.append_assoc, String.toList_append, List.take_append_of_le_length hlen]

/-- A reference tells the scheme of a view and the capital form of its name. -/
theorem reference_eq_iff {scheme scheme' : Scheme} {name name' : String} :
    reference scheme name = reference scheme' name' ↔
      scheme = scheme' ∧ Text.capitalize name = Text.capitalize name' := by
  constructor
  · intro h
    have htitle : scheme.title.toList.take 3 = scheme'.title.toList.take 3 := by
      rw [← take_reference scheme name, ← take_reference scheme' name', h]
    have hscheme : scheme = scheme' := by
      revert htitle
      cases scheme <;> cases scheme' <;> decide
    subst hscheme
    exact ⟨rfl, (String.append_right_inj _).mp h⟩
  · rintro ⟨rfl, h⟩
    unfold reference
    rw [h]

/-- Names in lower case share a reference exactly if they share the scheme and the plain form. -/
theorem reference_eq_iff_plain {scheme scheme' : Scheme} {name name' : String} (hname : lower name = name)
    (hname' : lower name' = name') :
    reference scheme name = reference scheme' name' ↔ scheme = scheme' ∧ plain name = plain name' := by
  rw [reference_eq_iff, Text.capitalize_eq_iff hname hname']

/-! ## Answers -/

/-- The view answers for a name in a scheme: it is of that scheme, and its name has the same plain form. -/
structure View.Answers (v : View) (scheme : Scheme) (name : String) : Prop where
  scheme : v.scheme = scheme
  lower : lower v.name = v.name
  plain : plain v.name = plain (Text.lower name)

namespace Catalog

/-- Every view is kept under its reference, and its name is in lower case. -/
def Filed (c : Catalog) : Prop :=
  ∀ key v, Keyed.get? c key = some v → key = v.reference ∧ lower v.name = v.name

/-- The catalogs that are built: from nothing, by inserting views whose names are in lower case, by discovering the views of
some schemes and by declaring views, up to the first that cannot be declared. -/
inductive Built : Catalog → Prop where
  | empty : Built []
  | insert {c : Catalog} {v : View} : Built c → lower v.name = v.name → Built (c.insert v)
  | discover {c : Catalog} {f : Files Id} {viewsDir : String} {schemes : List Scheme} {count : Nat} {found : Catalog × Nat} :
      Built c → (Site.discoverAll f viewsDir schemes (c, count)).run = .ok found → Built found.1
  | declare {c : Catalog} (entries : List ViewEntry) : Built c → Built (c.declareAll entries).1

variable {c c' : Catalog}

theorem Filed.answers (h : c.Filed) {scheme : Scheme} {name : String} {v : View}
    (hv : Keyed.get? c (reference scheme (lower name)) = some v) : v.Answers scheme name := by
  obtain ⟨hkey, hlower⟩ := h _ _ hv
  obtain ⟨hscheme, hplain⟩ := (reference_eq_iff_plain (Text.lower_lower name) hlower).mp hkey
  exact ⟨hscheme.symm, hlower, hplain.symm⟩

/-! ## Building -/

theorem Filed.put (h : c.Filed) {v : View} (hv : lower v.name = v.name) : Filed (Keyed.insert c v.reference v) := by
  intro key w hw
  rw [Keyed.get?_insert] at hw
  split at hw
  · rename_i hkey
    rw [Option.some.injEq] at hw
    rw [← hw]
    exact ⟨hkey, hv⟩
  · exact h key w hw

theorem lower_name_make (scheme : Scheme) (name includePath : String) :
    lower (View.make scheme name includePath).name = (View.make scheme name includePath).name :=
  Text.lower_lower name

/-- The view that a declaration begins with, before it is laid over it: the one that is there, or a new one of its name. -/
theorem Filed.declare (h : c.Filed) {e : ViewEntry} (hc : c.declare e = .ok c') :
    ∃ v, c' = Keyed.insert c v.reference (overlay v e) ∧ v.reference = reference e.scheme (declaredName e) ∧
      lower v.name = v.name ∧ ∀ old, Keyed.get? c (reference e.scheme (declaredName e)) = some old → v = old := by
  unfold Catalog.declare at hc
  dsimp only at hc
  split at hc
  · rw [Except.ok.injEq] at hc
    cases hold : Keyed.get? c (reference e.scheme (declaredName e)) with
    | none =>
      have hreference : (View.conventional e.scheme (declaredName e)).reference = reference e.scheme (declaredName e) := by
        unfold View.conventional View.make View.reference declaredName
        rw [Text.lower_lower]
      rw [hold, Option.getD_none] at hc
      exact ⟨_, by rw [hreference, hc], hreference, lower_name_make _ _ _, nofun⟩
    | some v =>
      obtain ⟨hkey, hlower⟩ := h _ _ hold
      rw [hold, Option.getD_some] at hc
      exact ⟨v, by rw [← hkey, hc], hkey.symm, hlower, fun old heq => Option.some.inj heq⟩
  · cases hc

theorem Filed.of_declare (h : c.Filed) {e : ViewEntry} (hc : c.declare e = .ok c') : c'.Filed := by
  obtain ⟨v, rfl, -, hlower, -⟩ := h.declare hc
  exact h.put (v := overlay v e) hlower

theorem Filed.declareAll (h : c.Filed) (entries : List ViewEntry) : (c.declareAll entries).1.Filed := by
  fun_induction Catalog.declareAll c entries with
  | case1 => exact h
  | case2 c e rest c' hc ih => exact ih (h.of_declare hc)
  | case3 => exact h

theorem Filed.foldl_insert (h : c.Filed) {views : List View} (hviews : ∀ v ∈ views, lower v.name = v.name) :
    Filed (views.foldl insert c) := by
  induction views generalizing c with
  | nil => exact h
  | cons v rest ih =>
    have hfirst := h.put (hviews v List.mem_cons_self)
    exact ih hfirst fun w hw => hviews w (List.mem_cons_of_mem _ hw)

theorem Filed.discoverAll (h : c.Filed) {f : Files Id} {viewsDir : String} {schemes : List Scheme} {count : Nat}
    {found : Catalog × Nat} (hfound : (Site.discoverAll f viewsDir schemes (c, count)).run = .ok found) : found.1.Filed := by
  obtain ⟨views, hviews, hmem⟩ := Site.exists_views_of_discoverAll hfound
  rw [hviews]
  refine h.foldl_insert fun v hv => ?_
  obtain ⟨scheme, -, entry, name, -, rfl⟩ := (hmem v).mp hv
  exact lower_name_make _ _ _

/-- In a catalog that is built every view is kept under its reference. -/
theorem Built.filed (h : Built c) : c.Filed := by
  induction h with
  | empty => exact fun _ _ hv => by cases hv
  | insert _ hv ih => exact ih.put hv
  | discover _ hfound ih => exact ih.discoverAll hfound
  | declare entries _ ih => exact ih.declareAll entries

/-- The catalog of the wraps that are always there is built like any other. -/
theorem built_builtins : Built builtins := by
  unfold builtins
  refine List.foldlRecOn builtinWraps (fun c name => insert c (.conventional .wrap name)) Built.empty ?_
  exact fun c hc name _ => hc.insert (lower_name_make _ _ _)

/-- The catalog of a site is built. -/
theorem built_of_loadCatalog {f : Files Id} {site : String} {manifest : Manifest}
    (h : (Site.loadCatalog f site manifest).run = .ok c) : Built c := by
  by_cases hdir : (f.isDirectory (Site.viewsPath site)).run = true
  · cases hfound : (Site.discover f builtins (Site.viewsPath site)).run with
    | error e =>
      simp only [Site.loadCatalog, Id.run_bind, Id.run_pure, hdir, if_true, hfound] at h
      cases h
    | ok found =>
      simp only [Site.loadCatalog, Id.run_bind, hdir, if_true, hfound] at h
      have hdeclared := (built_builtins.discover hfound).declare manifest.views
      rcases hall : Catalog.declareAll found.1 manifest.views with ⟨c', _ | e⟩
      · rw [hall] at h hdeclared
        cases h
        exact hdeclared
      · rw [hall] at h
        cases h
  · simp only [Site.loadCatalog, Id.run_bind, hdir] at h
    cases h

/-- Every view of a slot can be the answer: a catalog with a view of one name gives it for every name of the same plain
form. -/
theorem exists_built {scheme : Scheme} {name name' : String} (hname : lower name = name) (hname' : lower name' = name')
    (hplain : plain name = plain name') :
    ∃ c v, Built c ∧ Keyed.get? c (reference scheme name) = some v ∧ v.name = name' := by
  refine ⟨insert [] (.conventional scheme name'), .conventional scheme name', ?_, ?_, hname'⟩
  · exact Built.empty.insert (lower_name_make _ _ _)
  · have hreference : (View.conventional scheme name').reference = reference scheme name := by
      unfold View.conventional View.make View.reference
      dsimp only
      rw [hname', reference_eq_iff_plain hname' hname]
      exact ⟨rfl, hplain.symm⟩
    unfold insert
    rw [Keyed.get?_insert, if_pos hreference.symm]

/-- Names in lower case share a slot exactly if they have one plain form, which names that begin with an ASCII character have
to themselves. So what a built catalog gives for a name, what an insertion replaces and what a declaration is laid over is of
the scheme that was asked for and has a name of the same plain form, and it can be of any such name; other views are left
alone. -/
theorem view_of_slot {σ : Type} :
    (∀ scheme scheme' name name', lower name = name → lower name' = name' →
      (reference scheme name = reference scheme' name' ↔ scheme = scheme' ∧ plain name = plain name')) ∧
    (∀ name, lower name = name → (∀ c ∈ name.toList.head?, c.toNat < 128) → plain name = name) ∧
    (∀ c, Built c →
      (∀ r : Renderer σ, r.resolve = Keyed.get? c →
        (∀ scheme name v, r.lookup scheme name = .ok v → v.Answers scheme name) ∧
          ∀ t v, r.resolveTag t = .ok v → v.Answers (.ofKind t.kind) t.name) ∧
      (∀ name v, c.theme name = .ok v → v.Answers .theme name) ∧
      (∀ v, lower v.name = v.name →
        (∀ old, Keyed.get? c v.reference = some old → old.Answers v.scheme v.name) ∧
          ∀ key, key ≠ v.reference → Keyed.get? (c.insert v) key = Keyed.get? c key) ∧
      ∀ e c', c.declare e = .ok c' →
        (∀ old, Keyed.get? c (reference e.scheme (declaredName e)) = some old →
          old.Answers e.scheme (declaredName e) ∧
            Keyed.get? c' (reference e.scheme (declaredName e)) = some (overlay old e)) ∧
          ∀ key, key ≠ reference e.scheme (declaredName e) → Keyed.get? c' key = Keyed.get? c key) ∧
    ∀ scheme name name', lower name = name → lower name' = name' → plain name = plain name' →
      ∃ c v, Built c ∧ Keyed.get? c (reference scheme name) = some v ∧ v.name = name' := by
  refine ⟨fun _ _ _ _ => reference_eq_iff_plain, fun _ => Text.plain_of_ascii, ?_, fun _ _ _ => exists_built⟩
  intro c hbuilt
  have hfiled := hbuilt.filed
  refine ⟨?_, ?_, ?_, ?_⟩
  · intro r hr
    have hlookup : ∀ scheme name v, r.lookup scheme name = .ok v → v.Answers scheme name := by
      intro scheme name v hv
      unfold Renderer.lookup at hv
      dsimp only at hv
      rw [hr] at hv
      split at hv
      · rename_i w hw
        rw [Except.ok.injEq] at hv
        rw [← hv]
        exact hfiled.answers hw
      · cases hv
    exact ⟨hlookup, fun t v hv => hlookup _ _ v hv⟩
  · intro name v hv
    unfold theme at hv
    split at hv
    · rename_i w hw
      rw [Except.ok.injEq] at hv
      rw [← hv]
      exact hfiled.answers hw
    · cases hv
  · intro v hlower
    constructor
    · intro old hold
      refine hfiled.answers ?_
      rw [hlower]
      exact hold
    · intro key hkey
      unfold insert
      rw [Keyed.get?_insert, if_neg hkey]
  · intro e c' hc
    obtain ⟨v, rfl, hreference, -, hbase⟩ := hfiled.declare hc
    rw [hreference]
    constructor
    · intro old hold
      obtain rfl := hbase old hold
      refine ⟨hfiled.answers ?_, by rw [Keyed.get?_insert, if_pos rfl]⟩
      rw [show lower (declaredName e) = declaredName e from Text.lower_lower _]
      exact hold
    · intro key hkey
      rw [Keyed.get?_insert, if_neg hkey]

/-- The view of a theme whose name begins with a character that has the capital form of another. -/
def dotless : View := .conventional .theme "ı"

/-- `view_of_slot` of a catalog with the theme `ı`, which answers for `I`. -/
theorem view_of_slot_dotless :
    Built (insert [] dotless) ∧ theme (insert [] dotless) "I" = .ok dotless ∧ dotless.Answers .theme "I" ∧
      dotless.name ≠ lower "I" := by
  have hbuilt : Built (insert [] dotless) := Built.empty.insert (lower_name_make _ _ _)
  have hreference : reference .theme (lower "I") = dotless.reference := by decide +kernel
  have htheme : theme (insert [] dotless) "I" = .ok dotless := by
    unfold theme insert
    rw [Keyed.get?_insert, if_pos hreference]
  obtain ⟨-, -, hanswers, -⟩ := view_of_slot (σ := Unit)
  exact ⟨hbuilt, htheme, (hanswers _ hbuilt).2.1 "I" dotless htheme, by decide +kernel⟩

/-- Two names in lower case share a slot: a theme of one name replaces the theme of the other, which is then answered with it,
and a theme that is declared under one name is not added but laid over the theme of the other. -/
theorem slot_of_two_names :
    let c := insert [] (.conventional .theme "i")
    lower "i" = "i" ∧ lower "ı" = "ı" ∧ reference .theme "i" = reference .theme "ı" ∧
      (theme (insert c (.conventional .theme "ı")) "i").toOption.map View.name = some "ı" ∧
      ∃ c', declare c { scheme := .theme, name := "ı" } = .ok c' ∧ c'.map (fun entry => entry.2.name) = ["i"] ∧
        (theme c' "ı").toOption.map View.name = some "i" := by
  intro c
  obtain ⟨c', hc, hviews⟩ := Site.exists_ok_of_map (x := declare c { scheme := .theme, name := "ı" })
    (g := fun c' => (c'.map (fun entry => entry.2.name), (theme c' "ı").toOption.map View.name)) (b := (["i"], some "i"))
    (by decide +kernel)
  rw [Prod.mk.injEq] at hviews
  exact ⟨by decide +kernel, by decide +kernel, by decide +kernel, by decide +kernel, c', hc, hviews⟩

end Catalog

end Folio
