import Folio.Proofs.Overlay
import Folio.Render.Error

/-!
# The sources of data

`Reads v place` says at which place of the runtime a template looks for its data, by the words among its parameters; any other view
reads no place at all (`reads_or_dataless`). Binding a view fails exactly if nothing lies at the place that the view reads, and is
otherwise known from what lies there (`bind_source`). The elements of the data become rows one by one. Of their fields only those
under `parameters` do not stay in the row: an object there goes to the parameters of the view, and anything else is lost
(`bind_keeps_iff`, `bind_drops`).
-/

namespace Folio

namespace Binding

/-! ## Places -/

/-- A place of the runtime at which data is looked for. -/
inductive Place
  | primary
  /-- A named field of the request. -/
  | field (model : String)
  /-- What an earlier stage computed. -/
  | plugin (model : String)
  /-- A set that an earlier stage prepared, with a registry of its own. -/
  | precomputed (model : String)
  deriving DecidableEq, Repr

/-- At a place lie a data value and its registry. -/
inductive Place.Holds (runtime : Runtime) : Place → Data → Data → Prop
  | primary : Holds runtime .primary runtime.primary.data runtime.primary.modelRegistry
  | field {model : String} {data : Data} : runtime.data.get? model = some data → Holds runtime (.field model) data .null
  | plugin {model : String} {data : Data} : runtime.pluginData.get? model = some data → Holds runtime (.plugin model) data .null
  | precomputed {model : String} {entry : Keyed Data} {data : Data} : runtime.pluginData.get? model = some (.object entry) →
      Keyed.get? entry "data" = some data →
      Holds runtime (.precomputed model) data ((Keyed.get? entry "model_registry").getD .null)

/-- Nothing lies at a place: a name is not there, or what is under it is no object with data. -/
def Place.Missing (runtime : Runtime) : Place → Prop
  | primary => False
  | field model => runtime.data.hasKey model = false
  | plugin model => runtime.pluginData.hasKey model = false
  | precomputed model => ∀ entry, runtime.pluginData.get? model = some (.object entry) → Keyed.hasKey entry "data" = false

/-- The parameters of a view have a text under a key, which is a word but for the white space around it. -/
def Says (v : View) (key word : String) : Prop :=
  ∃ text, v.parameters.get? key = some (.text text) ∧ Text.trim text = word

/-- A template names a model other than the primary one. -/
structure Names (v : View) (model : String) : Prop where
  scheme : v.scheme = .template
  name : Says v "model_name" model
  nonblank : model ≠ ""
  other : model ≠ "primary"

/-- The place at which a view looks for its data. -/
inductive Reads (v : View) : Place → Prop
  | primary : v.scheme = .template → Says v "model_name" "primary" → Reads v .primary
  | field {model : String} : Names v model → Says v "model_type" "runtime_data" → Reads v (.field model)
  | plugin {model : String} : Names v model → Says v "model_type" "plugin_data" → Reads v (.plugin model)
  | precomputed {model : String} : Names v model → ¬ Says v "model_type" "runtime_data" → ¬ Says v "model_type" "plugin_data" →
      Reads v (.precomputed model)

/-- The view is no template, or its model name is missing, blank or no text. -/
def Dataless (v : View) : Prop :=
  v.scheme ≠ .template ∨ ∀ text, v.parameters.get? "model_name" = some (.text text) → Text.trim text = ""

variable {v : View} {runtime : Runtime} {place : Place} {model : String} {data registry : Data}

theorem map_textParameter?_eq_some_iff {key word : String} :
    (v.textParameter? key).map Text.trim = some word ↔ Says v key word := by
  unfold View.textParameter? Says
  constructor
  · intro h
    obtain ⟨text, htext, hword⟩ := Option.map_eq_some_iff.mp h
    obtain ⟨value, hvalue, hvtext⟩ := Option.bind_eq_some_iff.mp htext
    cases value with
    | text s =>
      cases hvtext
      exact ⟨text, hvalue, hword⟩
    | _ => cases hvtext
  · rintro ⟨text, htext, hword⟩
    rw [htext]
    exact congrArg some hword

theorem modelOf_eq (h : Says v "model_name" model) : modelOf v = model := by
  obtain ⟨text, htext, hmodel⟩ := h
  unfold modelOf View.modelName? View.textParameter?
  rw [htext]
  exact hmodel

/-- A view looks at some place unless it has no data. -/
theorem reads_or_dataless (v : View) : (∃ place, Reads v place) ∨ Dataless v := by
  by_cases hscheme : v.scheme = .template
  · by_cases hword : ∃ model, Says v "model_name" model ∧ model ≠ ""
    · obtain ⟨model, hmodel, hnonblank⟩ := hword
      refine Or.inl ?_
      by_cases hprimary : model = "primary"
      · exact ⟨_, .primary hscheme (hprimary ▸ hmodel)⟩
      · have hnames : Names v model := ⟨hscheme, hmodel, hnonblank, hprimary⟩
        by_cases hfield : Says v "model_type" "runtime_data"
        · exact ⟨_, .field hnames hfield⟩
        · by_cases hplugin : Says v "model_type" "plugin_data"
          · exact ⟨_, .plugin hnames hplugin⟩
          · exact ⟨_, .precomputed hnames hfield hplugin⟩
    · refine Or.inr (Or.inr fun text htext => ?_)
      exact Classical.byContradiction fun hne => hword ⟨_, ⟨text, htext, rfl⟩, hne⟩
  · exact Or.inr (Or.inl hscheme)

/-! ## The source of a view -/

/-- A view that says no model name, or a blank one, has a blank model. -/
theorem modelOf_of_blank (h : ∀ text, v.parameters.get? "model_name" = some (.text text) → Text.trim text = "") :
    modelOf v = "" := by
  have hempty : Text.trim "" = "" := by decide +kernel
  unfold modelOf View.modelName? View.textParameter?
  cases hname : v.parameters.get? "model_name" with
  | none => exact hempty
  | some value =>
    cases value with
    | text s => exact h s hname
    | _ => exact hempty

theorem source_of_dataless (h : Dataless v) (runtime : Runtime) : source v runtime = .ok none := by
  unfold source
  by_cases hscheme : v.scheme = .template
  · have hblank := modelOf_of_blank (h.resolve_left fun hne => hne hscheme)
    have hnot : "" ≠ primaryModel := by decide
    rw [if_neg (not_not_intro hscheme), hblank]
    dsimp only
    rw [if_neg hnot]
    rfl
  · rw [if_pos hscheme]

/-- What is read at a place for the view of a name. -/
def Place.read (view : String) (runtime : Runtime) : Place → Except BindingError (Data × Data)
  | primary => .ok (runtime.primary.data, runtime.primary.modelRegistry)
  | field model =>
    match runtime.data.get? model with
    | some data => .ok (data, .null)
    | none => .error (.missing view runtimeType model)
  | plugin model =>
    match runtime.pluginData.get? model with
    | some data => .ok (data, .null)
    | none => .error (.missing view pluginType model)
  | precomputed model =>
    match (runtime.pluginData.get? model).bind Data.object? with
    | none => .error (.notPrecomputed view model)
    | some entry =>
      match Keyed.get? entry "data" with
      | none => .error (.notPrecomputed view model)
      | some data => .ok (data, (Keyed.get? entry "model_registry").getD .null)

/-- The source of a view is what is read at its place. -/
theorem source_of_reads (hv : Reads v place) (runtime : Runtime) :
    source v runtime = (place.read v.name runtime).map some := by
  have htype {word : String} : v.modelType?.map Text.trim = some word ↔ Says v "model_type" word :=
    map_textParameter?_eq_some_iff
  have named {model : String} (h : Names v model) : source v runtime =
      if v.modelType?.map Text.trim = some runtimeType then ((Place.field model).read v.name runtime).map some
      else if v.modelType?.map Text.trim = some pluginType then ((Place.plugin model).read v.name runtime).map some
      else ((Place.precomputed model).read v.name runtime).map some := by
    have hother : model ≠ primaryModel := h.other
    unfold source Place.read
    rw [if_neg (not_not_intro h.scheme), modelOf_eq h.name]
    dsimp only
    rw [if_neg hother, if_neg (by simpa using h.nonblank)]
    congr 1
    · cases runtime.data.get? model <;> rfl
    · congr 1
      · cases runtime.pluginData.get? model <;> rfl
      · cases (runtime.pluginData.get? model).bind Data.object? with
        | none => rfl
        | some entry =>
          dsimp only
          cases Keyed.get? entry "data" <;> rfl
  cases hv with
  | primary hscheme hword =>
    unfold source
    rw [if_neg (not_not_intro hscheme), modelOf_eq hword]
    exact if_pos rfl
  | field hnames hword =>
    have hruntime : v.modelType?.map Text.trim = some runtimeType := htype.mpr hword
    rw [named hnames, if_pos hruntime]
  | plugin hnames hword =>
    have hplugin : v.modelType?.map Text.trim = some pluginType := htype.mpr hword
    have hruntime : v.modelType?.map Text.trim ≠ some runtimeType := by
      rw [hplugin]
      decide
    rw [named hnames, if_neg hruntime, if_pos hplugin]
  | precomputed hnames hfield hplugin =>
    have hruntime : v.modelType?.map Text.trim ≠ some runtimeType := fun h => hfield (htype.mp h)
    have hother : v.modelType?.map Text.trim ≠ some pluginType := fun h => hplugin (htype.mp h)
    rw [named hnames, if_neg hruntime, if_neg hother]

namespace Place

theorem read_of_holds (h : place.Holds runtime data registry) (view : String) :
    place.read view runtime = .ok (data, registry) := by
  cases h with
  | primary => rfl
  | field hdata =>
    unfold read
    dsimp only
    rw [hdata]
  | plugin hdata =>
    unfold read
    dsimp only
    rw [hdata]
  | precomputed hentry hdata =>
    unfold read
    dsimp only
    rw [hentry]
    dsimp only [Option.bind, Data.object?]
    rw [hdata]

theorem holds_of_read {view : String} (h : place.read view runtime = .ok (data, registry)) :
    place.Holds runtime data registry := by
  unfold read at h
  cases place with
  | primary =>
    cases h
    exact .primary
  | field model =>
    dsimp only at h
    split at h
    · rename_i hdata
      cases h
      exact .field hdata
    · cases h
  | plugin model =>
    dsimp only at h
    split at h
    · rename_i hdata
      cases h
      exact .plugin hdata
    · cases h
  | precomputed model =>
    dsimp only at h
    split at h
    · cases h
    · rename_i entry hentry
      obtain ⟨value, hvalue, hobject⟩ := Option.bind_eq_some_iff.mp hentry
      split at h
      · cases h
      · rename_i hdata
        cases h
        cases value with
        | object fields =>
          cases hobject
          exact .precomputed hvalue hdata
        | _ => cases hobject

/-- Either something lies at a place or it is missing there, and not both. -/
theorem not_holds_iff : (¬ ∃ data registry, place.Holds runtime data registry) ↔ place.Missing runtime := by
  cases place with
  | primary => exact ⟨fun h => h ⟨_, _, .primary⟩, nofun⟩
  | field model =>
    constructor
    · intro h
      refine Bool.eq_false_iff.mpr fun hkey => ?_
      obtain ⟨data, hdata⟩ := Option.isSome_iff_exists.mp hkey
      exact h ⟨data, _, .field hdata⟩
    · rintro hmissing ⟨_, _, hholds⟩
      cases hholds with
      | field hdata => exact Bool.eq_false_iff.mp hmissing (Option.isSome_iff_exists.mpr ⟨_, hdata⟩)
  | plugin model =>
    constructor
    · intro h
      refine Bool.eq_false_iff.mpr fun hkey => ?_
      obtain ⟨data, hdata⟩ := Option.isSome_iff_exists.mp hkey
      exact h ⟨data, _, .plugin hdata⟩
    · rintro hmissing ⟨_, _, hholds⟩
      cases hholds with
      | plugin hdata => exact Bool.eq_false_iff.mp hmissing (Option.isSome_iff_exists.mpr ⟨_, hdata⟩)
  | precomputed model =>
    constructor
    · intro h entry hentry
      refine Bool.eq_false_iff.mpr fun hkey => ?_
      obtain ⟨data, hdata⟩ := Option.isSome_iff_exists.mp hkey
      exact h ⟨data, _, .precomputed hentry hdata⟩
    · rintro hmissing ⟨_, _, hholds⟩
      cases hholds with
      | precomputed hentry hdata =>
        exact Bool.eq_false_iff.mp (hmissing _ hentry) (Option.isSome_iff_exists.mpr ⟨_, hdata⟩)

/-- Nothing can be read where nothing lies. -/
theorem exists_error_iff {view : String} : (∃ e, place.read view runtime = .error e) ↔ place.Missing runtime := by
  rw [← not_holds_iff]
  constructor
  · rintro ⟨e, he⟩ ⟨data, registry, hholds⟩
    rw [read_of_holds hholds] at he
    cases he
  · intro h
    cases hread : place.read view runtime with
    | error e => exact ⟨e, rfl⟩
    | ok read => exact absurd ⟨_, _, holds_of_read hread⟩ h

/-- The error of a place that cannot be read tells which view looked there. -/
theorem message_of_read_error {view : String} {e : BindingError} (h : place.read view runtime = .error e) :
    ∃ detail, e.message = "data binding misconfigured: view '" ++ view ++ "' " ++ detail := by
  have missing (part model : String) :
      (BindingError.missing view part model).message = "data binding misconfigured: view '" ++ view ++ "' " ++
        ("reads " ++ part ++ "." ++ model ++ ", which the runtime does not provide") := by
    have hsplit : "' reads " = "' " ++ "reads " := by simp
    unfold BindingError.message
    dsimp only
    rw [hsplit]
    simp only [String.append_assoc]
  have notPrecomputed (model : String) :
      (BindingError.notPrecomputed view model).message = "data binding misconfigured: view '" ++ view ++ "' " ++
        ("expects precomputed plugin_data." ++ model ++ ".data; set model_type or populate it from an earlier event") := by
    have hsplit : "' expects precomputed plugin_data." = "' " ++ "expects precomputed plugin_data." := by simp
    unfold BindingError.message
    dsimp only
    rw [hsplit]
    simp only [String.append_assoc]
  unfold read at h
  cases place with
  | primary => cases h
  | field model =>
    dsimp only at h
    split at h
    · cases h
    · cases h
      exact ⟨_, missing _ _⟩
  | plugin model =>
    dsimp only at h
    split at h
    · cases h
    · cases h
      exact ⟨_, missing _ _⟩
  | precomputed model =>
    dsimp only at h
    split at h
    · cases h
      exact ⟨_, notPrecomputed _⟩
    · split at h
      · cases h
        exact ⟨_, notPrecomputed _⟩
      · cases h

end Place

/-! ## Binding -/

/-- The binding of a data value and its registry to a view. -/
def ofData (v : View) (data registry : Data) : Binding :=
  { rows := rowsOf data, modelRegistry := registry, parameters := parametersFrom v.parameters data }

theorem bind_eq_ofData (hv : Reads v place) (hdata : place.Holds runtime data registry) :
    bind v runtime = .ok (ofData v data registry) := by
  unfold bind
  rw [source_of_reads hv, Place.read_of_holds hdata]
  rfl

theorem bind_of_dataless (h : Dataless v) (runtime : Runtime) : bind v runtime = .ok { parameters := v.parameters } := by
  unfold bind
  rw [source_of_dataless h]

theorem bind_eq_error_iff {e : BindingError} (hv : Reads v place) :
    bind v runtime = .error e ↔ place.read v.name runtime = .error e := by
  unfold bind
  rw [source_of_reads hv]
  cases place.read v.name runtime with
  | error e' => exact ⟨fun h => congrArg _ (Except.error.inj h), fun h => congrArg _ (Except.error.inj h)⟩
  | ok read => exact ⟨nofun, nofun⟩

/-- What a view with data is bound to is what lies at its place. -/
theorem holds_of_bind {bound : Binding} (hv : Reads v place) (h : bind v runtime = .ok bound) :
    ∃ data registry, place.Holds runtime data registry ∧ bound = ofData v data registry := by
  cases hread : place.read v.name runtime with
  | error e =>
    rw [(bind_eq_error_iff hv).mpr hread] at h
    cases h
  | ok read =>
    have hholds := Place.holds_of_read hread
    rw [bind_eq_ofData hv hholds] at h
    exact ⟨_, _, hholds, (Except.ok.inj h).symm⟩

/-- A view without data reads no place. -/
theorem not_reads_of_dataless (h : Dataless v) : ¬ Reads v place := by
  intro hv
  have hname (model : String) (hscheme : v.scheme = .template) (hword : Says v "model_name" model) : model = "" := by
    obtain ⟨text, htext, rfl⟩ := hword
    exact h.resolve_left (not_not_intro hscheme) text htext
  cases hv with
  | primary hscheme hword => exact absurd (hname _ hscheme hword) (by decide)
  | field hnames _ => exact hnames.nonblank (hname _ hnames.scheme hnames.name)
  | plugin hnames _ => exact hnames.nonblank (hname _ hnames.scheme hnames.name)
  | precomputed hnames _ _ => exact hnames.nonblank (hname _ hnames.scheme hnames.name)

/-- How many rows a data value gives: none if it is nothing, as many as it has items if it is a list, and one if it is anything
else. -/
inductive Yields : Data → Nat → Prop
  | null : Yields .null 0
  | list (items : List Data) : Yields (.list items) items.length
  | other {data : Data} : data ≠ .null → (∀ items, data ≠ .list items) → Yields data 1

theorem yields_length_elements (data : Data) : Yields data (elements data).length := by
  cases data with
  | null => exact .null
  | list items => exact .list items
  | _ => exact .other nofun nofun

theorem Yields.unique {data : Data} {n n' : Nat} (h : Yields data n) (h' : Yields data n') : n = n' := by
  cases h with
  | null =>
    cases h' with
    | null => rfl
    | other hnull _ => exact absurd rfl hnull
  | list items =>
    cases h' with
    | list => rfl
    | other _ hlist => exact absurd rfl (hlist items)
  | other hnull hlist =>
    cases h' with
    | null => exact absurd rfl hnull
    | list items => exact absurd rfl (hlist items)
    | other _ _ => rfl

/-- Binding fails exactly if nothing lies at the place that the view reads, and the error tells which view is misconfigured. If it
succeeds, the number of rows and the registry are those of what lies there. A view that reads no place is a view without data,
whatever the runtime. -/
theorem bind_source (v : View) (runtime : Runtime) :
    ((∃ e, bind v runtime = .error e) ↔ ∃ place, Reads v place ∧ place.Missing runtime) ∧
    (∀ e, bind v runtime = .error e →
      ∃ detail, (RenderError.binding e).message = "data binding misconfigured: view '" ++ v.name ++ "' " ++ detail) ∧
    (∀ place bound, Reads v place → bind v runtime = .ok bound →
      ∃ data registry, place.Holds runtime data registry ∧ Yields data bound.rows.length ∧
        bound.modelRegistry = registry) ∧
    ((∀ place, ¬ Reads v place) ↔ Dataless v) ∧
    (Dataless v → bind v runtime = .ok { rows := [], modelRegistry := .null, parameters := v.parameters }) := by
  have herror {e : BindingError} (h : bind v runtime = .error e) :
      ∃ place, Reads v place ∧ place.read v.name runtime = .error e := by
    rcases reads_or_dataless v with ⟨place, hv⟩ | hv
    · exact ⟨place, hv, (bind_eq_error_iff hv).mp h⟩
    · rw [bind_of_dataless hv] at h
      cases h
  refine ⟨⟨?_, ?_⟩, fun e he => ?_, fun place bound hv hbound => ?_, ⟨fun h => ?_, fun h _ => not_reads_of_dataless h⟩,
    fun h => bind_of_dataless h runtime⟩
  · rintro ⟨e, he⟩
    obtain ⟨place, hv, hread⟩ := herror he
    exact ⟨place, hv, Place.exists_error_iff.mp ⟨e, hread⟩⟩
  · rintro ⟨place, hv, hmissing⟩
    obtain ⟨e, he⟩ := Place.exists_error_iff.mpr hmissing
    exact ⟨e, (bind_eq_error_iff hv).mpr he⟩
  · obtain ⟨place, -, hread⟩ := herror he
    exact Place.message_of_read_error hread
  · obtain ⟨data, registry, hholds, rfl⟩ := holds_of_bind hv hbound
    have hcount : (ofData v data registry).rows.length = (elements data).length := List.length_map _
    exact ⟨data, registry, hholds, hcount ▸ yields_length_elements data, rfl⟩
  · exact (reads_or_dataless v).resolve_left fun ⟨place, hv⟩ => h place hv

/-- A template that reads a model of its own, with white space around its name and without a model type. -/
def articleList : View :=
  { scheme := .template, name := "list", includePath := "template/list", parameters := [("model_name", .text " articles ")] }

/-- A runtime with a prepared set under the name of the model. -/
def articles (data : Data) : Runtime :=
  { pluginData := [("articles", .object [("data", data), ("model_registry", .text "articles")])] }

/-- `bind_source` of a prepared set of two articles, of one that is a single text, and of a runtime without a set. -/
theorem bind_source_articles :
    (∃ bound, bind articleList (articles (.list [.int 1, .object [("id", .int 2)]])) = .ok bound ∧ bound.rows.length = 2 ∧
        bound.modelRegistry = .text "articles") ∧
      (∃ bound, bind articleList (articles (.text "only")) = .ok bound ∧ bound.rows.length = 1 ∧
        bound.modelRegistry = .text "articles") ∧
      ∃ e, bind articleList {} = .error e := by
  have htype (word : String) : ¬ Says articleList "model_type" word := by
    rintro ⟨text, htext, -⟩
    cases htext
  have hreads : Reads articleList (.precomputed "articles") :=
    .precomputed ⟨rfl, ⟨_, rfl, by decide +kernel⟩, by decide, by decide⟩ (htype _) (htype _)
  have hbound (data : Data) (hok : (bind articleList (articles data)).toOption.isSome = true) :
      ∃ bound, bind articleList (articles data) = .ok bound ∧ Yields data bound.rows.length ∧
        bound.modelRegistry = .text "articles" := by
    cases h : bind articleList (articles data) with
    | error e =>
      rw [h] at hok
      cases hok
    | ok bound =>
      obtain ⟨_, registry, hholds, hyields, hregistry⟩ := (bind_source articleList (articles data)).2.2.1 _ bound hreads h
      cases hholds with
      | precomputed hentry hdata =>
        cases hentry
        cases hdata
        exact ⟨bound, rfl, hyields, hregistry⟩
  obtain ⟨bound, hlist, hyields, hregistry⟩ := hbound (.list [.int 1, .object [("id", .int 2)]]) (by decide +kernel)
  obtain ⟨bound', htext, hyields', hregistry'⟩ := hbound (.text "only") (by decide +kernel)
  exact ⟨⟨bound, hlist, hyields.unique (.list _), hregistry⟩,
    ⟨bound', htext, hyields'.unique (.other nofun nofun), hregistry'⟩,
    (bind_source articleList {}).1.mpr ⟨_, hreads, nofun⟩⟩

/-! ## Elements and rows -/

/-- The row of an element from which nothing is lost: an object under `parameters` is moved out of it, and every other field
stays. -/
def keptRow (element : Data) : Row :=
  match Keyed.get? (fieldsOf element) parametersKey with
  | some (.object _) => Keyed.erase (fieldsOf element) parametersKey
  | _ => fieldsOf element

/-- The row of an element loses nothing unless a value that is no object is under `parameters`. -/
theorem rowOf_eq_keptRow_iff (element : Data) :
    rowOf element = keptRow element ↔
      ∀ value, Keyed.get? (fieldsOf element) parametersKey = some value → ∃ nested, value = .object nested := by
  unfold keptRow rowOf
  cases hvalue : Keyed.get? (fieldsOf element) parametersKey with
  | none => exact ⟨nofun, fun _ => Keyed.erase_eq_self hvalue⟩
  | some value =>
    have hlost (h : Keyed.erase (fieldsOf element) parametersKey = fieldsOf element) : False := by
      rw [← h, Keyed.get?_erase, if_pos rfl] at hvalue
      cases hvalue
    cases value with
    | object nested => exact ⟨fun _ _ h => ⟨nested, (Option.some.inj h).symm⟩, fun _ => rfl⟩
    | _ => exact ⟨fun h => absurd h hlost, fun h => (h _ rfl).elim nofun⟩

/-- The parameters nested in the elements lie over those of the view, the later ones over the earlier. -/
theorem layered_parametersFrom (parameters : Parameters) (data : Data) :
    Keyed.Layered ((elements data).map nestedParameters).reverse parameters (parametersFrom parameters data) := by
  have hnested := (Keyed.layered_nil parameters).foldl ((elements data).map nestedParameters)
  rw [List.append_nil, List.foldl_map] at hnested
  exact hnested

/-- What is under `parameters` of an element is in an object. -/
theorem eq_object_of_get? {element value : Data} (h : Keyed.get? (fieldsOf element) parametersKey = some value) :
    ∃ fields, element = .object fields ∧ Keyed.get? fields parametersKey = some value := by
  have hother (other : Data) : Keyed.get? [("value", other)] parametersKey = none := by
    have hne : parametersKey ≠ "value" := by decide
    rw [Keyed.get?_cons, if_neg hne]
    rfl
  cases element with
  | object fields => exact ⟨fields, rfl, h⟩
  | _ => cases (hother _).symm.trans h

/-- The parameters nested in an object are those of the object under `parameters`. -/
theorem nestedParameters_of_get? {fields nested : Keyed Data} (h : Keyed.get? fields parametersKey = some (.object nested)) :
    nestedParameters (.object fields) = nested := by
  unfold nestedParameters fieldsOf
  dsimp only
  rw [h]
  rfl

/-- The elements of the data that a view reads become its rows one by one, and of their fields only those under `parameters` do not
stay there. The keys of an object that is found there are among the parameters. Nothing is lost exactly if only objects are found
there. -/
theorem bind_keeps_iff (hv : Reads v place) (hdata : place.Holds runtime data registry) :
    ∃ bound, bind v runtime = .ok bound ∧
      bound.rows.length = (elements data).length ∧
      (∀ (i : Nat) (element : Data) (row : Row), (elements data)[i]? = some element → bound.rows[i]? = some row →
        ∀ key, Keyed.get? row key = if key = "parameters" then none else Keyed.get? (fieldsOf element) key) ∧
      (∀ fields nested, .object fields ∈ elements data → Keyed.get? fields "parameters" = some (.object nested) →
        ∀ key, Keyed.hasKey nested key = true → bound.parameters.hasKey key = true) ∧
      (bound.rows = (elements data).map keptRow ↔
        ∀ fields value, .object fields ∈ elements data → Keyed.get? fields "parameters" = some value →
          ∃ nested, value = .object nested) := by
  refine ⟨_, bind_eq_ofData hv hdata, List.length_map _, fun i element row helement hrow key => ?_,
    fun fields nested hmem hnested key hkey => ?_, ?_⟩
  · have hmap : (rowsOf data)[i]? = some (rowOf element) := by
      rw [rowsOf, List.getElem?_map, helement]
      rfl
    rw [Option.some.inj (hrow.symm.trans hmap)]
    exact Keyed.get?_erase _ _ _
  · refine ((layered_parametersFrom v.parameters data).keys key).mpr (Or.inl ⟨nested, ?_, hkey⟩)
    rw [List.mem_reverse, ← nestedParameters_of_get? hnested]
    exact List.mem_map_of_mem hmem
  · unfold ofData rowsOf
    dsimp only
    rw [List.map_inj_left]
    constructor
    · intro h fields value hmem hvalue
      exact (rowOf_eq_keptRow_iff _).mp (h _ hmem) value hvalue
    · intro h element hmem
      refine (rowOf_eq_keptRow_iff element).mpr fun value hvalue => ?_
      obtain ⟨fields, rfl, hfields⟩ := eq_object_of_get? hvalue
      exact h fields value hmem hfields

/-- A template that lists the primary data. -/
def primaryList : View :=
  { scheme := .template, name := "list", includePath := "template/list", parameters := [("model_name", .text "primary")] }

theorem reads_primaryList : Reads primaryList .primary := by
  have htrim : Text.trim "primary" = "primary" := by decide +kernel
  exact .primary rfl ⟨_, rfl, htrim⟩

/-- An element whose `parameters` are a number, and one whose `parameters` are an object, each beside a field of its own. -/
theorem bind_keeps_iff_mixed :
    let numbered : Data := .object [("id", .int 1), ("parameters", .int 7)]
    let nested : Data := .object [("id", .int 2), ("parameters", .object [("layout", .text "wide")])]
    let runtime : Runtime := { primary := { data := .list [numbered, nested], modelRegistry := .text "articles" } }
    ∃ bound, bind primaryList runtime = .ok bound ∧ bound.rows.length = 2 ∧ bound.parameters.hasKey "layout" = true ∧
      bound.rows ≠ [numbered, nested].map keptRow := by
  intro numbered nested runtime
  have hdata : Place.primary.Holds runtime runtime.primary.data runtime.primary.modelRegistry := .primary
  obtain ⟨bound, hbound, hlength, -, hkeys, hrows⟩ := bind_keeps_iff reads_primaryList hdata
  refine ⟨bound, hbound, hlength, hkeys _ _ (.tail _ (.head _)) rfl "layout" rfl, fun h => ?_⟩
  obtain ⟨_, hnumber⟩ := hrows.mp h _ _ (.head _) rfl
  cases hnumber

/-- The number under the `parameters` of an element is neither in the row of the element nor among the parameters. -/
theorem bind_drops :
    ∃ bound, bind primaryList
        { primary := { data := .list [.object [("id", .int 1), ("parameters", .int 7)]] } } = .ok bound ∧
      keptRow (.object [("id", .int 1), ("parameters", .int 7)]) = [("id", .int 1), ("parameters", .int 7)] ∧
      bound.rows = [[("id", .int 1)]] ∧ bound.parameters = primaryList.parameters :=
  ⟨_, bind_eq_ofData reads_primaryList .primary, rfl, rfl, rfl⟩

end Binding

end Folio
