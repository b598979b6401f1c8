import Folio.Catalog
import Folio.Render.Context
import Folio.Render.Error

/-!
# The renderer

What a rendering works with is gathered in one record: the views by reference, the templates, a listener and the
settings. Everything else is stated over that record. A rendering runs on a context and the state of the listener, and
it records every event it fires and every template it executes, the latest first; the record is kept when the
rendering fails.
-/

namespace Folio

/-- What a rendering works with. -/
structure Renderer (σ : Type) where
  /-- The view of a reference. -/
  resolve : String → Option View
  /-- A template lies at this path. -/
  hasTemplate : String → Bool
  /-- The output of the template at a path. -/
  execute : String → Scene → Except RenderError String
  listener : Listener σ
  settings : Settings := {}

/-- Something that happened while a document was rendered. -/
inductive Moment
  | fired (event : Event) (payload : Payload)
  | executed (path : String) (scene : Scene)

/-- The event, of a moment at which one was fired. -/
def Moment.event? : Moment → Option (Event × Payload)
  | fired event payload => some (event, payload)
  | executed .. => none

/-- The state of a rendering. -/
structure Run (σ : Type) where
  ctx : Context
  listener : σ
  /-- What happened so far, the latest first. -/
  recorded : List Moment := []

/-- The events that were fired, the earliest first. -/
def Run.events {σ : Type} (run : Run σ) : List (Event × Payload) :=
  run.recorded.reverse.filterMap Moment.event?

/-- A step of a rendering. -/
abbrev Rendering (σ : Type) := ExceptT RenderError (StateM (Run σ))

namespace Renderer

variable {σ : Type}

/-- The current context. -/
def context : Rendering σ Context := do
  return (← get).ctx

/-- A change of the context. -/
def change (f : Context → Context) : Rendering σ Unit :=
  modify fun run => { run with ctx := f run.ctx }

/-- Fire an event: the listener answers a payload, and the answer is put over the context. -/
def fire (r : Renderer σ) (event : Event) (payload : Payload) : Rendering σ Outcome := do
  let run ← get
  let (outcome, listener) := r.listener run.listener event payload
  set { run with ctx := run.ctx.apply outcome, listener, recorded := .fired event payload :: run.recorded }
  return outcome

/-- Execute the template at a path. -/
def run (r : Renderer σ) (path : String) (scene : Scene) : Rendering σ String := do
  modify fun run => { run with recorded := .executed path scene :: run.recorded }
  match r.execute path scene with
  | .ok output => return output
  | .error e => throw e

/-- The view of a scheme and a name, the name in any case. -/
def lookup (r : Renderer σ) (scheme : Scheme) (name : String) : Except RenderError View :=
  let key := reference scheme (Text.lower name)
  match r.resolve key with
  | some v => .ok v
  | none => .error (.unknownReference key)

/-- The theme of a name. -/
def lookupTheme (r : Renderer σ) (name : String) : Except RenderError View :=
  r.lookup .theme name

end Renderer

end Folio
