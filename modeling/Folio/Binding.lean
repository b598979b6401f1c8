import Folio.View
import Folio.Runtime
import Folio.Text.Blank

/-!
# Binding data to a view

Which rows, which registry and which parameters a view is rendered with. Only templates read data. A template names
its model in its parameters: `primary` is the primary result set of the request, a blank name is no model at all, and
for any other name the model type says where to look. `source` makes that choice; `bind` turns the chosen data into
rows and moves the `parameters` objects nested in them into the parameters of the view.
-/

namespace Folio

/-- What a view is rendered with. -/
structure Binding where
  rows : List Row := []
  modelRegistry : Data := .null
  parameters : Parameters := []
  deriving Inhabited

/-- A view names a model that the runtime does not have. -/
inductive BindingError
  /-- No data under this name in this part of the runtime. -/
  | missing (view part model : String)
  /-- No precomputed set under this name. -/
  | notPrecomputed (view model : String)
  deriving DecidableEq, Repr

/-- The wording of a binding error. -/
def BindingError.message : BindingError → String
  | missing view part model =>
    "data binding misconfigured: view '" ++ view ++ "' reads " ++ part ++ "." ++ model ++
      ", which the runtime does not provide"
  | notPrecomputed view model =>
    "data binding misconfigured: view '" ++ view ++ "' expects precomputed plugin_data." ++ model ++
      ".data; set model_type or populate it from an earlier event"

namespace Binding

/-- The model name that stands for the primary result set. -/
def primaryModel : String := "primary"

/-- The model type that reads the named fields of the runtime. -/
def runtimeType : String := "runtime_data"

/-- The model type that reads what earlier stages computed. -/
def pluginType : String := "plugin_data"

/-- The field of a row whose object belongs to the parameters. -/
def parametersKey : String := "parameters"

/-- The model that a view reads; blank if it reads none. -/
def modelOf (v : View) : String :=
  Text.trim (v.modelName?.getD "")

/-- The data and the registry that a view reads; none if it reads no data. -/
def source (v : View) (runtime : Runtime) : Except BindingError (Option (Data × Data)) :=
  if v.scheme ≠ .template then .ok none
  else
    let model := modelOf v
    if model = primaryModel then .ok (some (runtime.primary.data, runtime.primary.modelRegistry))
    else if model.isEmpty then .ok none
    else
      let type := v.modelType?.map Text.trim
      if type = some runtimeType then
        match runtime.data.get? model with
        | some data => .ok (some (data, .null))
        | none => .error (.missing v.name runtimeType model)
      else if type = some pluginType then
        match runtime.pluginData.get? model with
        | some data => .ok (some (data, .null))
        | none => .error (.missing v.name pluginType model)
      else
        match (runtime.pluginData.get? model).bind Data.object? with
        | none => .error (.notPrecomputed v.name model)
        | some entry =>
          match Keyed.get? entry "data" with
          | none => .error (.notPrecomputed v.name model)
          | some data => .ok (some (data, (Keyed.get? entry "model_registry").getD .null))

/-- The elements of a data value: none of nothing, the items of a list, and any other value itself. -/
def elements : Data → List Data
  | .null => []
  | .list items => items
  | other => [other]

/-- The fields of an element: those of an object, and any other value under `value`. -/
def fieldsOf : Data → Row
  | .object fields => fields
  | other => [("value", other)]

/-- The row an element becomes. -/
def rowOf (element : Data) : Row :=
  Keyed.erase (fieldsOf element) parametersKey

/-- The parameters nested in an element. -/
def nestedParameters (element : Data) : Parameters :=
  ((Keyed.get? (fieldsOf element) parametersKey).bind Data.object?).getD []

/-- The rows of a data value. -/
def rowsOf (data : Data) : List Row :=
  (elements data).map rowOf

/-- The parameters of a view with those nested in the elements of a data value put over them, in order. -/
def parametersFrom (parameters : Parameters) (data : Data) : Parameters :=
  (elements data).foldl (fun ps element => Keyed.extend ps (nestedParameters element)) parameters

end Binding

/-- What a view is rendered with. -/
def bind (v : View) (runtime : Runtime) : Except BindingError Binding :=
  match Binding.source v runtime with
  | .error e => .error e
  | .ok none => .ok { parameters := v.parameters }
  | .ok (some (data, registry)) =>
    .ok { rows := Binding.rowsOf data, modelRegistry := registry,
          parameters := Binding.parametersFrom v.parameters data }

end Folio
