import Folio.Decode.Model
import Folio.Proofs.Records

/-!
# The record types of documents

For each record type of the model how its values are taken apart (`Record.Layout`), and that the data they are written as is one
of their forms.
-/

namespace Folio

open Decode Decode.Record

/-! ## Single values -/

theorem elim_text_eq_null_iff (text : Option String) : text.elim .null Data.text = .null ↔ text = none := by
  cases text <;> simp

/-- What holds of a value that was read, and of the one that is taken if none was, holds of the two together. -/
theorem forall_getD {α : Type} {P : α → Prop} {read : Option α} (h : ∀ a ∈ read, P a) {default : α} (hdefault : P default) :
    P (read.getD default) := by
  cases read with
  | none => exact hdefault
  | some a => exact h a rfl

theorem map_text_inj {texts texts' : List String} : texts.map Data.text = texts'.map Data.text ↔ texts = texts' :=
  List.map_inj_right fun _ _ => Data.text.inj

namespace Decode.Source

@[simp] theorem readText_ofData (expected s : String) : (ofData (.text s)).readText expected = .ok s := rfl

@[simp] theorem readSize_ofData (n : Nat) : (ofData (.int n)).readSize = .ok n := by
  simp [ofData, readSize]

@[simp] theorem readTexts_ofData (expected : String) (values : List String) :
    readList (readText expected) (ofData (.list (values.map .text))) = .ok values :=
  readList_ofData fun s _ => readText_ofData expected s

@[simp] theorem readOptionalText_ofData (expected : String) (text : Option String) :
    readOptionalText expected (ofData (text.elim .null .text)) = .ok text := by
  cases text <;> rfl

end Decode.Source

@[simp] theorem Scheme.read_ofData (scheme : Scheme) : Scheme.read (.ofData (.text scheme.name)) = .ok scheme := by
  simp [Source.ofData, Scheme.read, Scheme.readName, Scheme.ofName?_name]

/-! ## Routes -/

namespace Route

/-- How a route is taken apart. -/
def layout : Route.record.Layout where
  slots x := [("theme", .text x.theme), ("page", .text x.page), ("template", .text x.template), ("wrap", .text x.wrap)]
  defaults := [("theme", .text "default"), ("page", .text ""), ("template", .text ""), ("wrap", .text "")]
  part x given := {
    theme := present given "theme" x.theme
    page := present given "page" x.page
    template := present given "template" x.template
    wrap := present given "wrap" x.wrap }
  isSet_part x := by simp [record, textField, RecordField.of]
  read_part x := by simp [record, textField, RecordField.of, Except.map, present_cons_of_ne]
  optional := by simp [record, textField, RecordField.of]
  sorted_defaults := by simp
  finish_part x given h := by
    simp at h
    simp [record, getD_present, h]

theorem form_toData (x : Route) : layout.Form x x.toData :=
  .named (by simp) (by simp [layout]) (by simp [layout])

theorem sorted_toData (x : Route) : x.toData.Sorted := by
  rw [toData, Data.sorted_object_iff_of_keys ["page", "template", "theme", "wrap"] rfl (by decide)]
  simp

@[simp] theorem read_toData (x : Route) : record.read (.ofData x.toData) = .ok x :=
  layout.read_form ((form_toData x).sorted_slots (sorted_toData x)) (form_toData x)

theorem toData_inj {x y : Route} : x.toData = y.toData ↔ x = y := by
  refine ⟨fun h => ?_, congrArg _⟩
  cases x
  cases y
  simp_all [toData]

end Route

/-! ## Primary result sets -/

namespace Primary

/-- How a primary result set is taken apart. -/
def layout : Primary.record.Layout where
  slots x := [("data", x.data), ("model_registry", x.modelRegistry)]
  defaults := [("data", .null), ("model_registry", .null)]
  part x given := { data := present given "data" x.data, modelRegistry := present given "model_registry" x.modelRegistry }
  isSet_part x := by simp [record, RecordField.of]
  read_part x := by simp +contextual [record, RecordField.of, Except.map, present_cons_of_ne]
  optional := by simp [record, RecordField.of]
  sorted_defaults := by simp
  finish_part x given h := by
    simp at h
    simp [record, getD_present, h]

theorem form_toData (x : Primary) : layout.Form x x.toData :=
  .named (by simp) (by simp [layout]) (by simp [layout])

theorem sorted_toData_iff (x : Primary) : x.toData.Sorted ↔ x.data.Sorted ∧ x.modelRegistry.Sorted := by
  rw [toData, Data.sorted_object_iff_of_keys ["data", "model_registry"] rfl (by decide)]
  simp

@[simp] theorem read_toData {x : Primary} (h : x.toData.Sorted) : record.read (.ofData x.toData) = .ok x :=
  layout.read_form ((form_toData x).sorted_slots h) (form_toData x)

theorem toData_inj {x y : Primary} : x.toData = y.toData ↔ x = y := by
  cases x
  cases y
  simp [toData]

/-- What was read into the draft is in order. -/
def Draft.Sorted (d : Draft) : Prop :=
  (∀ v ∈ d.data, v.Sorted) ∧ ∀ v ∈ d.modelRegistry, v.Sorted

theorem sorted_of_read {s : Source} {x : Primary} (h : record.read s = .ok x) : x.toData.Sorted := by
  refine record.forall_read (P := Draft.Sorted) (Q := fun x => x.toData.Sorted) (by simp [record, Draft.Sorted]) ?_ ?_ s x h
  · simp only [record, List.forall_mem_cons]
    refine ⟨.of_read fun s v hv d hd => ⟨?_, hd.2⟩, .of_read fun s v hv d hd => ⟨hd.1, ?_⟩, nofun⟩
    · simpa using Source.sorted_of_readData hv
    · simpa using Source.sorted_of_readData hv
  · rintro ⟨data, registry⟩ x ⟨hdata, hregistry⟩ hx
    cases hx
    rw [sorted_toData_iff]
    exact ⟨forall_getD hdata .null, forall_getD hregistry .null⟩

end Primary

/-! ## Runtimes -/

namespace Runtime

/-- How a runtime is taken apart. -/
def layout : Runtime.record.Layout where
  slots x := [("route", x.route.toData), ("primary", x.primary.toData), ("data", .object x.data),
    ("plugin_data", .object x.pluginData)]
  defaults := [("route", ({} : Route).toData), ("primary", ({} : Primary).toData), ("data", .object []),
    ("plugin_data", .object [])]
  part x given := {
    route := present given "route" x.route
    primary := present given "primary" x.primary
    data := present given "data" x.data
    pluginData := present given "plugin_data" x.pluginData }
  isSet_part x := by simp [record, RecordField.of]
  read_part x := by
    simp +contextual [record, RecordField.of, Except.map, present_cons_of_ne, -Data.sorted_object_iff]
  optional := by simp [record, RecordField.of]
  sorted_defaults := by simp [Route.sorted_toData, Primary.sorted_toData_iff]
  finish_part x given h := by
    simp [Route.toData_inj, Primary.toData_inj] at h
    simp [record, getD_present, h]

theorem form_toData (x : Runtime) : layout.Form x x.toData :=
  .named (by simp) (by simp [layout]) (by simp [layout])

theorem sorted_toData_iff (x : Runtime) : x.toData.Sorted ↔
    (Data.object x.data).Sorted ∧ (Data.object x.pluginData).Sorted ∧ x.primary.toData.Sorted := by
  rw [toData, Data.sorted_object_iff_of_keys ["data", "plugin_data", "primary", "route"] rfl (by decide)]
  simp [Route.sorted_toData]

/-- What was read into the draft is in order. -/
def Draft.Sorted (d : Draft) : Prop :=
  (∀ fields ∈ d.data, (Data.object fields).Sorted) ∧ (∀ fields ∈ d.pluginData, (Data.object fields).Sorted) ∧
    ∀ p ∈ d.primary, p.toData.Sorted

theorem sorted_of_read {s : Source} {x : Runtime} (h : record.read s = .ok x) : x.toData.Sorted := by
  refine record.forall_read (P := Draft.Sorted) (Q := fun x => x.toData.Sorted) (by simp [record, Draft.Sorted]) ?_ ?_ s x h
  · simp only [record, List.forall_mem_cons]
    refine ⟨.of_put fun _ _ hd => hd, .of_read fun s v hv d hd => ⟨hd.1, hd.2.1, ?_⟩, .of_read fun s v hv d hd => ⟨?_, hd.2⟩,
      .of_read fun s v hv d hd => ⟨hd.1, ?_, hd.2.2⟩, nofun⟩
    · simpa using Primary.sorted_of_read hv
    · simpa using Source.sorted_of_readObject hv
    · simpa using Source.sorted_of_readObject hv
  · rintro ⟨route, primary, data, pluginData⟩ x ⟨hdata, hplugin, hprimary⟩ hx
    cases hx
    rw [sorted_toData_iff]
    exact ⟨forall_getD hdata Data.sorted_empty, forall_getD hplugin Data.sorted_empty,
      forall_getD hprimary (by simp [Primary.sorted_toData_iff])⟩

end Runtime

/-! ## Settings -/

namespace Settings

/-- How settings are taken apart. -/
def layout : Settings.record.Layout where
  slots x := [("max_iterations", .int x.maxIterations), ("head_tokens", .list (x.headTokens.map .text))]
  defaults := [("max_iterations", .int 100), ("head_tokens", .list [.text "head", .text "defer"])]
  part x given := {
    maxIterations := present given "max_iterations" x.maxIterations
    headTokens := present given "head_tokens" x.headTokens }
  isSet_part x := by simp [record, RecordField.of]
  read_part x := by simp +contextual [record, RecordField.of, Except.map, present_cons_of_ne]
  optional := by simp [record, RecordField.of]
  sorted_defaults := by simp
  finish_part x given h := by
    obtain ⟨hmax, htokens⟩ := List.forall_mem_cons.mp h
    have hmax : "max_iterations" ∈ given ∨ x.maxIterations = 100 := by
      simp at hmax
      exact hmax.imp_right fun h => by omega
    have htokens : "head_tokens" ∈ given ∨ x.headTokens = ["head", "defer"] := by simpa [← map_text_inj] using htokens
    simp [record, getD_present, hmax, htokens]

theorem form_toData (x : Settings) : layout.Form x x.toData :=
  .named (by simp) (by simp [layout]) (by simp [layout])

theorem sorted_toData (x : Settings) : x.toData.Sorted := by
  rw [toData, Data.sorted_object_iff_of_keys ["head_tokens", "max_iterations"] rfl (by decide)]
  simp

@[simp] theorem read_toData (x : Settings) : record.read (.ofData x.toData) = .ok x :=
  layout.read_form ((form_toData x).sorted_slots (sorted_toData x)) (form_toData x)

theorem toData_inj {x y : Settings} : x.toData = y.toData ↔ x = y := by
  refine ⟨fun h => ?_, congrArg _⟩
  have hfields := Data.object.inj h
  simp only [List.cons.injEq, Prod.mk.injEq, Data.list.injEq, Data.int.injEq, map_text_inj, Int.natCast_inj, true_and,
    and_true] at hfields
  cases x
  cases y
  simp_all

end Settings

/-! ## Declared views -/

namespace ViewEntry

/-- How a declared view is taken apart; a place that is not given is written as nothing. -/
def layout : ViewEntry.record.Layout where
  slots x := [("scheme", .text x.scheme.name), ("name", .text x.name), ("include_path", x.includePath.elim .null .text),
    ("parameters", .object x.parameters)]
  defaults := [("include_path", .null), ("parameters", .object [])]
  part x given := {
    scheme := present given "scheme" x.scheme
    name := present given "name" x.name
    includePath := present given "include_path" x.includePath
    parameters := present given "parameters" x.parameters }
  isSet_part x := by simp [record, textField, RecordField.of]
  read_part x := by
    simp +contextual [record, textField, RecordField.of, Except.map, present_cons_of_ne, -Data.sorted_object_iff]
  optional := by simp [record, textField, RecordField.of]
  sorted_defaults := by simp
  finish_part x given h := by
    simp [elim_text_eq_null_iff] at h
    simp [record, present_of_mem, getD_present, h]

theorem form_toData (x : ViewEntry) : layout.Form x x.toData := by
  unfold toData
  cases hpath : x.includePath <;>
    exact .named (by simp) (by simp [layout, hpath]) (by simp [layout, hpath])

theorem sorted_toData_iff (x : ViewEntry) : x.toData.Sorted ↔ (Data.object x.parameters).Sorted := by
  unfold toData
  cases x.includePath with
  | none =>
    rw [Data.sorted_object_iff_of_keys ["name", "parameters", "scheme"] rfl (by decide)]
    simp
  | some path =>
    rw [Data.sorted_object_iff_of_keys ["include_path", "name", "parameters", "scheme"] rfl (by decide)]
    simp

@[simp] theorem read_toData {x : ViewEntry} (h : x.toData.Sorted) : record.read (.ofData x.toData) = .ok x :=
  layout.read_form ((form_toData x).sorted_slots h) (form_toData x)

theorem readList_toData {views : List ViewEntry} (h : ∀ e ∈ views, e.toData.Sorted) :
    Source.readList record.read (.ofData (.list (views.map toData))) = .ok views :=
  Source.readList_ofData fun e he => read_toData (h e he)

/-- What was read into the draft is in order. -/
def Draft.Sorted (d : Draft) : Prop :=
  ∀ fields ∈ d.parameters, (Data.object fields).Sorted

theorem sorted_of_read {s : Source} {x : ViewEntry} (h : record.read s = .ok x) : x.toData.Sorted := by
  refine record.forall_read (P := Draft.Sorted) (Q := fun x => x.toData.Sorted) (by simp [record, Draft.Sorted]) ?_ ?_ s x h
  · simp only [record, textField, List.forall_mem_cons]
    refine ⟨.of_put fun _ _ hd => hd, .of_put fun _ _ hd => hd, .of_put fun _ _ hd => hd, .of_read fun s v hv d hd => ?_, nofun⟩
    simpa [Draft.Sorted] using Source.sorted_of_readObject hv
  · rintro ⟨_ | scheme, _ | name, path, parameters⟩ x hparameters hx <;> cases hx
    rw [sorted_toData_iff]
    exact forall_getD hparameters Data.sorted_empty

end ViewEntry

/-! ## Manifests -/

namespace Manifest

/-- How a manifest is taken apart. -/
def layout : Manifest.record.Layout where
  slots x := [("theme", .text x.theme), ("render", x.render.toData), ("views", .list (x.views.map ViewEntry.toData))]
  defaults := [("theme", .text "default"), ("render", ({} : Settings).toData), ("views", .list [])]
  part x given := {
    theme := present given "theme" x.theme
    render := present given "render" x.render
    views := present given "views" x.views }
  isSet_part x := by simp [record, textField, RecordField.of]
  read_part x := by
    simp +contextual [record, textField, RecordField.of, Except.map, present_cons_of_ne, ViewEntry.readList_toData]
  optional := by simp [record, textField, RecordField.of]
  sorted_defaults := by simp [Settings.sorted_toData]
  finish_part x given h := by
    simp [Settings.toData_inj] at h
    simp [record, getD_present, h]

theorem form_toData (x : Manifest) : layout.Form x x.toData :=
  .named (by simp) (by simp [layout]) (by simp [layout])

theorem sorted_toData_iff (x : Manifest) : x.toData.Sorted ↔ ∀ e ∈ x.views, e.toData.Sorted := by
  rw [toData, Data.sorted_object_iff_of_keys ["render", "theme", "views"] rfl (by decide)]
  simp [Settings.sorted_toData]

/-- What was read into the draft is in order. -/
def Draft.Sorted (d : Draft) : Prop :=
  ∀ views ∈ d.views, ∀ e ∈ views, e.toData.Sorted

theorem sorted_of_read {s : Source} {x : Manifest} (h : record.read s = .ok x) : x.toData.Sorted := by
  refine record.forall_read (P := Draft.Sorted) (Q := fun x => x.toData.Sorted) (by simp [record, Draft.Sorted]) ?_ ?_ s x h
  · simp only [record, textField, List.forall_mem_cons]
    refine ⟨.of_put fun _ _ hd => hd, .of_put fun _ _ hd => hd, .of_read fun s v hv d hd => ?_, nofun⟩
    intro views hviews e he
    obtain rfl : v = views := Option.some.inj hviews
    obtain ⟨s, hs⟩ := Source.exists_of_mem_readList hv he
    exact ViewEntry.sorted_of_read hs
  · rintro ⟨theme, render, views⟩ x hviews hx
    cases hx
    rw [sorted_toData_iff]
    exact forall_getD hviews nofun

end Manifest

/-! ## Views -/

namespace View

/-- How a view is taken apart. -/
def layout : View.record.Layout where
  slots x := [("scheme", .text x.scheme.name), ("name", .text x.name), ("include_path", .text x.includePath),
    ("parameters", .object x.parameters)]
  defaults := [("parameters", .object [])]
  part x given := {
    scheme := present given "scheme" x.scheme
    name := present given "name" x.name
    includePath := present given "include_path" x.includePath
    parameters := present given "parameters" x.parameters }
  isSet_part x := by simp [record, textField, RecordField.of]
  read_part x := by
    simp +contextual [record, textField, RecordField.of, Except.map, present_cons_of_ne, -Data.sorted_object_iff]
  optional := by simp [record, textField, RecordField.of]
  sorted_defaults := by simp
  finish_part x given h := by
    simp at h
    simp [record, present_of_mem, getD_present, h]

theorem form_toData (x : View) : layout.Form x x.toData :=
  .named (by simp) (by simp [layout]) (by simp [layout])

theorem sorted_toData_iff (x : View) : x.toData.Sorted ↔ (Data.object x.parameters).Sorted := by
  rw [toData, Data.sorted_object_iff_of_keys ["include_path", "name", "parameters", "scheme"] rfl (by decide)]
  simp

/-- What was read into the draft is in order. -/
def Draft.Sorted (d : Draft) : Prop :=
  ∀ fields ∈ d.parameters, (Data.object fields).Sorted

theorem sorted_of_read {s : Source} {x : View} (h : record.read s = .ok x) : x.toData.Sorted := by
  refine record.forall_read (P := Draft.Sorted) (Q := fun x => x.toData.Sorted) (by simp [record, Draft.Sorted]) ?_ ?_ s x h
  · simp only [record, textField, List.forall_mem_cons]
    refine ⟨.of_put fun _ _ hd => hd, .of_put fun _ _ hd => hd, .of_put fun _ _ hd => hd, .of_read fun s v hv d hd => ?_, nofun⟩
    simpa [Draft.Sorted] using Source.sorted_of_readObject hv
  · rintro ⟨_ | scheme, _ | name, _ | path, parameters⟩ x hparameters hx <;> cases hx
    rw [sorted_toData_iff]
    exact forall_getD hparameters Data.sorted_empty

end View

end Folio
