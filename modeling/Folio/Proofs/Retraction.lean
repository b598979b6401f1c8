import Folio.Proofs.Layouts

/-!
# Reading undoes writing

Each record type of the model is written as data and read from data. Whatever form a value is given in, it is read as the value,
and so is what is written for it. The fields of the closed types are the only keys that their objects may have, wherever such an
object stands in a document (`RecordType.Stray`).
-/

namespace Folio

open Decode

/-- The record types that documents hold. -/
inductive RecordType
  | route
  | primary
  | runtime
  | settings
  | entry
  | manifest
  | view
  deriving DecidableEq, Repr

namespace RecordType

/-- The values of a record type. -/
def Value : RecordType → Type
  | route => Route
  | primary => Primary
  | runtime => Runtime
  | settings => Settings
  | entry => ViewEntry
  | manifest => Manifest
  | view => View

/-- The drafts of a record type. -/
def Draft : RecordType → Type
  | route => Route.Draft
  | primary => Primary.Draft
  | runtime => Runtime.Draft
  | settings => Settings.Draft
  | entry => ViewEntry.Draft
  | manifest => Manifest.Draft
  | view => View.Draft

/-- How a record type is read. -/
def record : (t : RecordType) → Record t.Draft t.Value
  | route => Route.record
  | primary => Primary.record
  | runtime => Runtime.record
  | settings => Settings.record
  | entry => ViewEntry.record
  | manifest => Manifest.record
  | view => View.record

/-- How the values of a record type are taken apart. -/
def layout : (t : RecordType) → t.record.Layout
  | route => Route.layout
  | primary => Primary.layout
  | runtime => Runtime.layout
  | settings => Settings.layout
  | entry => ViewEntry.layout
  | manifest => Manifest.layout
  | view => View.layout

/-- A value of a record type as data. -/
def toData : (t : RecordType) → t.Value → Data
  | route => Route.toData
  | primary => Primary.toData
  | runtime => Runtime.toData
  | settings => Settings.toData
  | entry => ViewEntry.toData
  | manifest => Manifest.toData
  | view => View.toData

/-- Read a value of a record type from data. -/
def read (t : RecordType) (d : Data) : Except DecodeError t.Value :=
  Decode.ofData t.record.read d

/-- The fields of a record type that hold a record each, with the type of it. -/
def parts : RecordType → List (String × RecordType)
  | runtime => [("route", route), ("primary", primary)]
  | manifest => [("render", settings)]
  | _ => []

/-- The fields of a record type that hold lists of records, with the type of these. -/
def listParts : RecordType → List (String × RecordType)
  | manifest => [("views", entry)]
  | _ => []

/-- Somewhere in the data that stands for a record there is an object, in the place of a closed record, with a key that names no
field of it. -/
inductive Stray : RecordType → Data → Prop
  | key {t : RecordType} {fields : List (String × Data)} {e : String × Data} :
    t ≠ view → e ∈ fields → e.1 ∉ t.record.names → Stray t (.object fields)
  | part {t u : RecordType} {name : String} {d value : Data} :
    (name, u) ∈ t.parts → t.record.Holds name d value → Stray u value → Stray t d
  | item {t u : RecordType} {name : String} {d item : Data} {items : List Data} :
    (name, u) ∈ t.listParts → t.record.Holds name d (.list items) → item ∈ items → Stray u item → Stray t d

/-! ## Reading and writing -/

theorem form_toData (t : RecordType) (x : t.Value) : t.layout.Form x (t.toData x) := by
  cases t with
  | route => exact Route.form_toData x
  | primary => exact Primary.form_toData x
  | runtime => exact Runtime.form_toData x
  | settings => exact Settings.form_toData x
  | entry => exact ViewEntry.form_toData x
  | manifest => exact Manifest.form_toData x
  | view => exact View.form_toData x

/-- What is read is written in order. -/
theorem sorted_of_read {t : RecordType} {d : Data} {x : t.Value} (h : t.read d = .ok x) : (t.toData x).Sorted := by
  cases t with
  | route => exact Route.sorted_toData x
  | primary => exact Primary.sorted_of_read h
  | runtime => exact Runtime.sorted_of_read h
  | settings => exact Settings.sorted_toData x
  | entry => exact ViewEntry.sorted_of_read h
  | manifest => exact Manifest.sorted_of_read h
  | view => exact View.sorted_of_read h

/-- Every form of a value is read as the value if the value is written in order. -/
theorem read_of_form {t : RecordType} {x : t.Value} (hsorted : (t.toData x).Sorted) {d : Data} (hform : t.layout.Form x d) :
    t.read d = .ok x :=
  t.layout.read_form ((t.form_toData x).sorted_slots hsorted) hform

/-! ## Stray keys -/

theorem closed_of_ne {t : RecordType} (h : t ≠ view) : t.record.closed = true := by
  cases t with
  | view => exact absurd rfl h
  | _ => rfl

/-- A field that holds a record takes what is read as that record. -/
theorem exists_field_of_mem_parts {t u : RecordType} {name : String} (h : (name, u) ∈ t.parts) :
    ∃ f ∈ t.record.fields, f.name = name ∧ ∀ s, f.Takes s → ∃ y, u.record.read s = .ok y := by
  cases t with
  | runtime =>
    simp only [parts, List.mem_cons, Prod.mk.injEq, List.not_mem_nil, or_false] at h
    rcases h with ⟨rfl, rfl⟩ | ⟨rfl, rfl⟩
    · exact ⟨_, List.mem_cons_self, rfl, fun s hs => RecordField.read_of_takes hs⟩
    · exact ⟨_, List.mem_cons_of_mem _ List.mem_cons_self, rfl, fun s hs => RecordField.read_of_takes hs⟩
  | manifest =>
    simp only [parts, List.mem_singleton, Prod.mk.injEq] at h
    obtain ⟨rfl, rfl⟩ := h
    exact ⟨_, List.mem_cons_of_mem _ List.mem_cons_self, rfl, fun s hs => RecordField.read_of_takes hs⟩
  | _ => cases h

/-- A field that holds a list of records takes what is read as a list of them. -/
theorem exists_field_of_mem_listParts {t u : RecordType} {name : String} (h : (name, u) ∈ t.listParts) :
    ∃ f ∈ t.record.fields, f.name = name ∧ ∀ s, f.Takes s → ∃ ys, Source.readList u.record.read s = .ok ys := by
  cases t with
  | manifest =>
    simp only [listParts, List.mem_singleton, Prod.mk.injEq] at h
    obtain ⟨rfl, rfl⟩ := h
    exact ⟨_, List.mem_cons_of_mem _ (List.mem_cons_of_mem _ List.mem_cons_self), rfl,
      fun s hs => RecordField.read_of_takes hs⟩
  | _ => cases h

/-- Data with a stray key is read as nothing. -/
theorem Stray.not_read {t : RecordType} {d : Data} (h : t.Stray d) (x : t.Value) : t.read d ≠ .ok x := by
  induction h with
  | key hclosed he hname => exact fun hread => hname (Record.mem_names_of_read (closed_of_ne hclosed) hread he)
  | @part t u name d value hpart hholds _ ih =>
    intro hread
    obtain ⟨f, hf, rfl, htakes⟩ := exists_field_of_mem_parts hpart
    obtain ⟨y, hy⟩ := htakes _ (Record.takes_of_holds t.layout.distinct hread hf hholds)
    exact ih y hy
  | @item t u name d item items hpart hholds hitem _ ih =>
    intro hread
    obtain ⟨f, hf, rfl, htakes⟩ := exists_field_of_mem_listParts hpart
    obtain ⟨ys, hys⟩ := htakes _ (Record.takes_of_holds t.layout.distinct hread hf hholds)
    obtain ⟨y, hy⟩ := (Source.read_of_readEach hys).1 _ (Source.mem_ofItems hitem)
    exact ih y hy

/-- Reading undoes writing. For each record type a value is read from what is written for it, and from each of its other forms:
an object of its fields in any order, or the list of them in declared order, and in both the fields that have their defaults may
be left out. A value that is read from any data at all is read again from what is written for it, and that is written as before.
Data in which an object that stands for a closed record has a key that names no field, at any depth, is refused; a view passes
over such keys.

The values are those whose keyed collections are in order at every depth. Everything that is read is such a value. -/
theorem read_written :
    (∀ (t : RecordType) (x : t.Value), (t.toData x).Sorted →
      t.read (t.toData x) = .ok x ∧ ∀ d, t.layout.Form x d → t.read d = .ok x) ∧
    (∀ (t : RecordType) (d : Data) (x : t.Value), t.read d = .ok x →
      (t.toData x).Sorted ∧ t.read (t.toData x) = .ok x ∧ ∀ y, t.read (t.toData x) = .ok y → t.toData y = t.toData x) ∧
    (∀ (t : RecordType) (d : Data), t.Stray d → ∃ e, t.read d = .error e) ∧
    ∀ fields : List (String × Data),
      view.read (.object fields) = view.read (.object (fields.filter (·.1 ∈ view.record.names))) := by
  have written {t : RecordType} {x : t.Value} (h : (t.toData x).Sorted) : t.read (t.toData x) = .ok x :=
    read_of_form h (t.form_toData x)
  refine ⟨fun t x h => ⟨written h, fun d hform => read_of_form h hform⟩, fun t d x h => ?_, fun t d h => ?_, fun fields => ?_⟩
  · have hsorted := sorted_of_read h
    refine ⟨hsorted, written hsorted, fun y hy => ?_⟩
    rw [written hsorted] at hy
    rw [Except.ok.inj hy]
  · cases hread : t.read d with
    | error e => exact ⟨e, rfl⟩
    | ok x => exact absurd hread (h.not_read x)
  · exact Record.read_filter (r := View.record) rfl fields

/-- A site that bounds its documents and declares a list that lies in the usual place. -/
def blog : Manifest where
  theme := "blog"
  render := { maxIterations := 7 }
  views := [{ scheme := .template, name := "list", parameters := [("model_name", .text "primary")] }]

/-- The manifest as a list, with settings that leave the head tokens out and a declared view that is a list as well. -/
def blogItems : Data :=
  .list [.text "blog", .object [("max_iterations", .int 7)],
    .list [.list [.text "template", .text "list", .null, .object [("model_name", .text "primary")]]]]

/-- A declared view with a key of its own. -/
def cachedView : Data :=
  .object [("cache", .bool true), ("name", .text "list"), ("scheme", .text "template")]

theorem read_written_blog :
    (manifest.toData blog).Sorted ∧ manifest.read (manifest.toData blog) = .ok blog ∧
      settings.layout.Form blog.render (.object [("max_iterations", .int 7)]) ∧
      settings.read (.object [("max_iterations", .int 7)]) = .ok blog.render ∧
      manifest.read blogItems = .ok blog ∧ (∀ y, manifest.read (manifest.toData blog) = .ok y →
        manifest.toData y = manifest.toData blog) ∧
      manifest.Stray (.list [.text "blog", .object [], .list [cachedView]]) ∧
      ∃ e, manifest.read (.list [.text "blog", .object [], .list [cachedView]]) = .error e := by
  have hsorted : (manifest.toData blog).Sorted := (Manifest.sorted_toData_iff blog).mpr (by
    simp [blog, ViewEntry.sorted_toData_iff, Keyed.Ordered])
  have hform : settings.layout.Form blog.render (.object [("max_iterations", .int 7)]) :=
    .named (by simp) (by simp [layout, Settings.layout, blog]) (by simp [layout, Settings.layout, blog])
  have hitems : manifest.read blogItems = .ok blog := rfl
  have hviews : manifest.record.Holds "views" (.list [.text "blog", .object [], .list [cachedView]]) (.list [cachedView]) :=
    .placed (show manifest.record.names[2]? = some "views" from rfl) rfl
  have hstray : manifest.Stray (.list [.text "blog", .object [], .list [cachedView]]) :=
    .item List.mem_cons_self hviews List.mem_cons_self (.key (by decide) List.mem_cons_self (by decide))
  obtain ⟨hvalues, hread, hrefused, -⟩ := read_written
  exact ⟨hsorted, (hvalues manifest blog hsorted).1, hform,
    (hvalues settings blog.render (Settings.sorted_toData _)).2 _ hform, hitems, (hread manifest _ _ hitems).2.2, hstray,
    hrefused manifest _ hstray⟩

end RecordType

end Folio
