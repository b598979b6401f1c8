import Folio.Decode.Record
import Folio.Runtime
import Folio.Manifest

/-!
# Decoding the model

How each type of the model is read: its fields in their declared order, what each of them holds, and what a field that
is left out becomes. Every type but that of views refuses keys that name no field.
-/

namespace Folio

open Decode

/-! ## Schemes -/

/-- The scheme of a name, as a document gives it: the case counts. -/
def Scheme.readName (name : String) : Except DecodeError Scheme :=
  match ofName? name with
  | some scheme => .ok scheme
  | none => .error (.here (.unknownVariant name (all.map Scheme.name)))

/-- Read what stands beside the name of a scheme: nothing. -/
def Scheme.readRest (scheme : Scheme) : Source → Except DecodeError Scheme
  | .null => .ok scheme
  | .scalar s =>
    match Scalar.meaning s.spelling with
    | .null => if s.style = .plain then .ok scheme else .error (.here (.invalidType (.text s.spelling) "unit"))
    | m => .error (.here (.invalidType (if s.style = .plain then m.found else .text s.spelling) "unit"))
  | other => .error (other.refuse "unit")

/-- Read a scheme: its name, or in data an object with the name as its only key, or in a configuration a tag. -/
def Scheme.read : Source → Except DecodeError Scheme
  | .text name => readName name
  | .scalar s =>
    match Scalar.localTag? s.tag with
    | some tag => do readRest (← readName tag) (.scalar { s with tag := none })
    | none => readName s.spelling
  | .map .data _ [] => .error (.here (.invalidValue .map "map with a single key"))
  | .map .data _ [(_, key, value)] => do readRest (← readName (← key.readText "variant identifier")) value
  | .map .data _ _ => .error (.here (.invalidValue .map "map with a single key"))
  | .map .config tag entries =>
    match Scalar.localTag? tag with
    | some name => do readRest (← readName name) (.map .config none entries)
    | none => .error (.here (.invalidType .map "a YAML tag starting with '!'"))
  | .list .config tag items =>
    match Scalar.localTag? tag with
    | some name => do readRest (← readName name) (.list .config none items)
    | none => .error (.here (.invalidType .sequence "a YAML tag starting with '!'"))
  | other => .error (other.refuse "string or map")

/-! ## The runtime -/

/-- A route as far as it has been read. -/
structure Route.Draft where
  theme : Option String := none
  page : Option String := none
  template : Option String := none
  wrap : Option String := none

/-- A text field. -/
def textField {δ : Type} (name : String) (get : δ → Option String) (put : String → δ → δ) (required : Bool) :
    RecordField δ :=
  .of name get put (Source.readText "a string") required

/-- How a route is read. -/
def Route.record : Record Route.Draft Route where
  title := "Route"
  fields := [
    textField "theme" (·.theme) (fun v d => { d with theme := some v }) false,
    textField "page" (·.page) (fun v d => { d with page := some v }) false,
    textField "template" (·.template) (fun v d => { d with template := some v }) false,
    textField "wrap" (·.wrap) (fun v d => { d with wrap := some v }) false]
  blank := {}
  finish d := .ok {
    theme := d.theme.getD "default"
    page := d.page.getD ""
    template := d.template.getD ""
    wrap := d.wrap.getD "" }

/-- A primary result set as far as it has been read. -/
structure Primary.Draft where
  data : Option Data := none
  modelRegistry : Option Data := none

/-- How a primary result set is read. -/
def Primary.record : Record Primary.Draft Primary where
  title := "PrimaryData"
  fields := [
    .of "data" (·.data) (fun v d => { d with data := some v }) Source.readData false,
    .of "model_registry" (·.modelRegistry) (fun v d => { d with modelRegistry := some v }) Source.readData false]
  blank := {}
  finish d := .ok { data := d.data.getD .null, modelRegistry := d.modelRegistry.getD .null }

/-- A runtime as far as it has been read. -/
structure Runtime.Draft where
  route : Option Route := none
  primary : Option Primary := none
  data : Option (Keyed Data) := none
  pluginData : Option (Keyed Data) := none

/-- How a runtime is read. -/
def Runtime.record : Record Runtime.Draft Runtime where
  title := "RuntimeContext"
  fields := [
    .of "route" (·.route) (fun v d => { d with route := some v }) Route.record.read false,
    .of "primary" (·.primary) (fun v d => { d with primary := some v }) Primary.record.read false,
    .of "data" (·.data) (fun v d => { d with data := some v }) Source.readObject false,
    .of "plugin_data" (·.pluginData) (fun v d => { d with pluginData := some v }) Source.readObject false]
  blank := {}
  finish d := .ok {
    route := d.route.getD {}
    primary := d.primary.getD {}
    data := d.data.getD []
    pluginData := d.pluginData.getD [] }

/-! ## The manifest -/

/-- Settings as far as they have been read. -/
structure Settings.Draft where
  maxIterations : Option Nat := none
  headTokens : Option (List String) := none

/-- How settings are read. -/
def Settings.record : Record Settings.Draft Settings where
  title := "RenderConfig"
  fields := [
    .of "max_iterations" (·.maxIterations) (fun v d => { d with maxIterations := some v }) Source.readSize false,
    .of "head_tokens" (·.headTokens) (fun v d => { d with headTokens := some v })
      (Source.readList (Source.readText "a string")) false]
  blank := {}
  finish d := .ok {
    maxIterations := d.maxIterations.getD ({} : Settings).maxIterations
    headTokens := d.headTokens.getD ({} : Settings).headTokens }

/-- A declared view as far as it has been read. -/
structure ViewEntry.Draft where
  scheme : Option Scheme := none
  name : Option String := none
  includePath : Option (Option String) := none
  parameters : Option Parameters := none

/-- What a path is called where something else stands. -/
def pathExpected : String := "path string"

/-- How a declared view is read. -/
def ViewEntry.record : Record ViewEntry.Draft ViewEntry where
  title := "ViewEntry"
  fields := [
    .of "scheme" (·.scheme) (fun v d => { d with scheme := some v }) Scheme.read true,
    textField "name" (·.name) (fun v d => { d with name := some v }) true,
    .of "include_path" (·.includePath) (fun v d => { d with includePath := some v })
      (Source.readOptionalText pathExpected) false,
    .of "parameters" (·.parameters) (fun v d => { d with parameters := some v }) Source.readObject false]
  blank := {}
  finish d :=
    match d.scheme, d.name with
    | none, _ => .error (.missingField "scheme")
    | some _, none => .error (.missingField "name")
    | some scheme, some name =>
      .ok { scheme, name, includePath := d.includePath.getD none, parameters := d.parameters.getD [] }

/-- A manifest as far as it has been read. -/
structure Manifest.Draft where
  theme : Option String := none
  render : Option Settings := none
  views : Option (List ViewEntry) := none

/-- How a manifest is read. -/
def Manifest.record : Record Manifest.Draft Manifest where
  title := "SiteManifest"
  fields := [
    textField "theme" (·.theme) (fun v d => { d with theme := some v }) false,
    .of "render" (·.render) (fun v d => { d with render := some v }) Settings.record.read false,
    .of "views" (·.views) (fun v d => { d with views := some v }) (Source.readList ViewEntry.record.read) false]
  blank := {}
  finish d := .ok {
    theme := d.theme.getD "default"
    render := d.render.getD {}
    views := d.views.getD [] }

/-! ## Views -/

/-- A view as far as it has been read. -/
structure View.Draft where
  scheme : Option Scheme := none
  name : Option String := none
  includePath : Option String := none
  parameters : Option Parameters := none

/-- How a view is read. Keys that name no field are passed over. -/
def View.record : Record View.Draft View where
  title := "ViewExtension"
  fields := [
    .of "scheme" (·.scheme) (fun v d => { d with scheme := some v }) Scheme.read true,
    textField "name" (·.name) (fun v d => { d with name := some v }) true,
    .of "include_path" (·.includePath) (fun v d => { d with includePath := some v })
      (Source.readText pathExpected) true,
    .of "parameters" (·.parameters) (fun v d => { d with parameters := some v }) Source.readObject false]
  closed := false
  blank := {}
  finish d :=
    match d.scheme, d.name, d.includePath with
    | none, _, _ => .error (.missingField "scheme")
    | some _, none, _ => .error (.missingField "name")
    | some _, some _, none => .error (.missingField "include_path")
    | some scheme, some name, some includePath =>
      .ok { scheme, name, includePath, parameters := d.parameters.getD [] }

/-! ## From data -/

/-- Read a data value. -/
def Decode.ofData {α : Type} (read : Source → Except DecodeError α) (d : Data) : Except DecodeError α :=
  read (.ofData d)

end Folio
