import Folio.View
import Folio.Render.Event

/-!
# The context of a rendering

What changes while one document is rendered: the page, the view being rendered with its rows, parameters and registry,
and the runtime. `Context.apply` puts the outcome of an event over it.
-/

namespace Folio

/-- The views that the route of a request names, by scheme. -/
structure Seeds where
  page : Option View := none
  template : Option View := none
  wrap : Option View := none
  deriving Inhabited

/-- The seeded view of a scheme. Themes are never seeded. -/
def Seeds.get? (s : Seeds) : Scheme → Option View
  | .theme => none
  | .page => s.page
  | .template => s.template
  | .wrap => s.wrap

/-- What changes while one document is rendered. -/
structure Context where
  renderedPage : String := ""
  renderedView : String := ""
  runtime : Runtime := {}
  rows : List Row := []
  parameters : Parameters := []
  modelRegistry : Data := .null
  /-- The kinds and names of tags that wait for the second pass. -/
  excluded : List String := []
  /-- The parse cycles completed so far. -/
  cycles : Nat := 0
  seeds : Seeds := {}
  deriving Inhabited

namespace Context

/-- The context as a view begins: its data is in place and nothing of it is rendered. -/
def beginView (ctx : Context) (rows : List Row) (parameters : Parameters) (modelRegistry : Data) : Context :=
  { ctx with rows, parameters, modelRegistry, renderedView := "" }

/-- The payload of an event that concerns the whole page. -/
def pagePayload (ctx : Context) : Payload :=
  { runtime := ctx.runtime, renderedPage := some ctx.renderedPage }

/-- The payload of an event that concerns the current view. -/
def viewPayload (ctx : Context) (queryResults : Option Data) : Payload :=
  { runtime := ctx.runtime, parameters := some ctx.parameters, modelRegistry := some ctx.modelRegistry, queryResults,
    renderedView := some ctx.renderedView, renderedPage := some ctx.renderedPage }

/-- The context with an outcome put over it. Query results have no place of their own here. -/
def apply (ctx : Context) (o : Outcome) : Context :=
  if o.isUnchanged then ctx
  else { ctx with
    runtime := o.runtime.getD ctx.runtime
    parameters := o.parameters.getD ctx.parameters
    modelRegistry := o.modelRegistry.getD ctx.modelRegistry
    renderedView := o.renderedView.getD ctx.renderedView
    renderedPage := o.renderedPage.getD ctx.renderedPage }

/-- Every field of the context is the one that the outcome has, or else stays. -/
theorem apply_eq (ctx : Context) (o : Outcome) :
    ctx.apply o = { ctx with
      runtime := o.runtime.getD ctx.runtime
      parameters := o.parameters.getD ctx.parameters
      modelRegistry := o.modelRegistry.getD ctx.modelRegistry
      renderedView := o.renderedView.getD ctx.renderedView
      renderedPage := o.renderedPage.getD ctx.renderedPage } := by
  unfold apply
  split
  · rename_i hsame
    simp only [Outcome.isUnchanged, Bool.and_eq_true, Option.isNone_iff_eq_none] at hsame
    obtain ⟨⟨⟨⟨⟨hruntime, hparameters⟩, hregistry⟩, -⟩, hview⟩, hpage⟩ := hsame
    rw [hruntime, hparameters, hregistry, hview, hpage]
    rfl
  · rfl

@[simp] theorem runtime_apply (ctx : Context) (o : Outcome) : (ctx.apply o).runtime = o.runtime.getD ctx.runtime := by
  rw [apply_eq]

@[simp] theorem renderedPage_apply (ctx : Context) (o : Outcome) :
    (ctx.apply o).renderedPage = o.renderedPage.getD ctx.renderedPage := by
  rw [apply_eq]

@[simp] theorem rows_apply (ctx : Context) (o : Outcome) : (ctx.apply o).rows = ctx.rows := by
  rw [apply_eq]

/-- The part of a context that a listener or a template can see, as data. -/
def toData (ctx : Context) : Data :=
  .object [
    ("model_registry", ctx.modelRegistry),
    ("parameters", .object ctx.parameters),
    ("rendered_page", .text ctx.renderedPage),
    ("rendered_view", .text ctx.renderedView),
    ("rows", .list (ctx.rows.map .object)),
    ("runtime", ctx.runtime.toData)]

end Context

/-- What a template sees. -/
structure Scene where
  row : Row
  rows : List Row
  parameters : Parameters
  modelRegistry : Data
  runtime : Runtime
  deriving Inhabited

/-- What a template of the current view sees, given the current row. -/
def Context.scene (ctx : Context) (row : Row) : Scene :=
  { row, rows := ctx.rows, parameters := ctx.parameters, modelRegistry := ctx.modelRegistry, runtime := ctx.runtime }

/-- The variables of a template, by name. -/
def Scene.environment (s : Scene) : Keyed Data :=
  [("model_registry", s.modelRegistry), ("parameters", .object s.parameters), ("row", .object s.row),
    ("rows", .list (s.rows.map .object)), ("runtime", s.runtime.toData)]

end Folio
