import Folio.Runtime

/-!
# Events

While a document is rendered, events are fired at fixed points. A listener gets a payload with the state of the
rendering and answers with an outcome; what the outcome leaves out stays as it is.
-/

namespace Folio

/-- The points at which a listener is called. -/
inductive Event
  | beforeParse
  | beforeRenderView
  | beforeRenderViewHead
  | beforeRenderViewItem
  | beforeRenderViewFooter
  | afterRenderView
  | beforeParseHead
  | afterRender
  deriving DecidableEq, Repr, Inhabited

namespace Event

/-- Every event. -/
def all : List Event :=
  [beforeParse, beforeRenderView, beforeRenderViewHead, beforeRenderViewItem, beforeRenderViewFooter, afterRenderView,
    beforeParseHead, afterRender]

/-- The name of an event. -/
def name : Event → String
  | beforeParse => "onBeforeParse"
  | beforeRenderView => "onBeforeRenderView"
  | beforeRenderViewHead => "onBeforeRenderViewHead"
  | beforeRenderViewItem => "onBeforeRenderViewItem"
  | beforeRenderViewFooter => "onBeforeRenderViewFooter"
  | afterRenderView => "onAfterRenderView"
  | beforeParseHead => "onBeforeParseHead"
  | afterRender => "onAfterRender"

/-- The event of a given name. -/
def ofName? (s : String) : Option Event :=
  all.find? (·.name = s)

end Event

/-- What a listener is told. -/
structure Payload where
  runtime : Runtime
  parameters : Option Parameters := none
  modelRegistry : Option Data := none
  queryResults : Option Data := none
  renderedView : Option String := none
  renderedPage : Option String := none
  deriving Inhabited

/-- A payload as data; what is absent is nothing. No query is ever attached. -/
def Payload.toData (p : Payload) : Data :=
  .object [
    ("model_registry", p.modelRegistry.getD .null),
    ("parameters", (p.parameters.map Data.object).getD .null),
    ("query", .null),
    ("query_results", p.queryResults.getD .null),
    ("rendered_page", (p.renderedPage.map Data.text).getD .null),
    ("rendered_view", (p.renderedView.map Data.text).getD .null),
    ("runtime_data", p.runtime.toData)]

/-- What a listener answers: new values for what it wants changed. -/
structure Outcome where
  runtime : Option Runtime := none
  parameters : Option Parameters := none
  modelRegistry : Option Data := none
  queryResults : Option Data := none
  renderedView : Option String := none
  renderedPage : Option String := none
  deriving Inhabited

namespace Outcome

/-- The outcome that changes nothing. -/
def unchanged : Outcome := {}

/-- The outcome changes nothing. -/
def isUnchanged (o : Outcome) : Bool :=
  o.runtime.isNone && o.parameters.isNone && o.modelRegistry.isNone && o.queryResults.isNone &&
    o.renderedView.isNone && o.renderedPage.isNone

/-- The row that replaces the current one, if the results are an object. -/
def row? (o : Outcome) : Option Row :=
  o.queryResults.bind Data.object?

end Outcome

/-- Whoever is told of events, with a state of its own. -/
abbrev Listener (σ : Type) := σ → Event → Payload → Outcome × σ

/-- The listener that changes nothing. -/
def Listener.silent : Listener Unit := fun _ _ _ => (.unchanged, ())

end Folio
