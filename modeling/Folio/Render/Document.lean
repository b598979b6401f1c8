import Folio.Render.Region
import Folio.Render.Resolve
import Folio.Text.Find

/-!
# Rendering a document

A document begins as the output of its root, the theme. A pass parses the page for tags, puts the output of each tag
in the place of all its copies, and starts over with the page so made, until no tags are left: that is one parse cycle
after another, and the settings bound how many there may be. The first pass leaves the deferred tags alone, the second
takes them too. The recursion of `pass` is on the number of cycles that are still allowed, so every rendering ends.
-/

namespace Folio

namespace Renderer

variable {σ : Type}

/-- The rows among the items of a list. -/
def rowsAmong (items : List Data) : List Row :=
  items.filterMap Data.object?

/-- Bind a tag's view: its data is in place, the tag's attributes lie over its parameters, and a listener has had its
say on the rows. -/
def prepare (r : Renderer σ) (v : View) (t : Tag) : Rendering σ Unit := do
  match bind v (← context).runtime with
  | .error e => throw (.binding e)
  | .ok bound =>
    let parameters := Keyed.extend bound.parameters (t.attributes.map fun (k, s) => (k, Data.text s))
    change fun ctx => ctx.beginView bound.rows parameters bound.modelRegistry
    let ctx ← context
    let outcome ← r.fire .beforeRenderView (ctx.viewPayload (some (.list (ctx.rows.map .object))))
    match outcome.queryResults.bind Data.list? with
    | some items => change fun ctx => { ctx with rows := rowsAmong items }
    | none => return

/-- The output of a tag's view, wrapped if the tag asks for it. -/
def renderTarget (r : Renderer σ) (v : View) (t : Tag) : Rendering σ String := do
  let output ← r.renderView v
  if t.wrap.isEmpty then return output
  else match r.resolveWrap (← context).seeds t.wrap with
    | .ok wrap => r.renderWrap wrap output
    | .error e => throw e

/-- The output of a tag: its view is resolved, bound and rendered. -/
def output (r : Renderer σ) (t : Tag) : Rendering σ String := do
  match r.resolveSeeded (← context).seeds t with
  | .error e => throw e
  | .ok v =>
    r.prepare v t
    r.renderTarget v t

/-- Render a tag and put the outcome in the place of all its copies in the page. -/
def renderTag (r : Renderer σ) (t : Tag) : Rendering σ Unit := do
  let output ← r.output t
  change fun ctx => { ctx with renderedView := output }
  let _ ← r.fire .afterRenderView ((← context).viewPayload none)
  change fun ctx => { ctx with renderedPage := Text.replaceAll ctx.renderedPage t.raw ctx.renderedView }

/-- Render the tags of one cycle in order. A tag that is no longer in the page has been dealt with by an equal one. -/
def renderTags (r : Renderer σ) : List Tag → Rendering σ Unit
  | [] => return
  | t :: rest => do
    if Text.contains (← context).renderedPage t.raw then r.renderTag t
    r.renderTags rest

/-- Parse cycles until the page has no tags left that are not excluded. `allowed` cycles may still be completed; one
more is an error. -/
def pass (r : Renderer σ) (excluded : List String) (allowed : Nat) : Rendering σ Unit := do
  match Tag.parse (← context).renderedPage excluded with
  | [] => return
  | tags =>
    r.renderTags tags
    change fun ctx => { ctx with cycles := ctx.cycles + 1 }
    match allowed with
    | 0 => throw (.loopLimit r.settings.maxIterations)
    | allowed + 1 => r.pass excluded allowed

/-- The cycles that a context leaves of those allowed. -/
def remaining (r : Renderer σ) (ctx : Context) : Nat :=
  r.settings.maxIterations - ctx.cycles

/-- Fire an event that concerns the whole page. -/
def firePage (r : Renderer σ) (event : Event) : Rendering σ Unit := do
  let _ ← r.fire event (← context).pagePayload

/-- The context in which the rendering of a document begins. -/
def openingContext (r : Renderer σ) (runtime : Runtime) : Context :=
  { runtime, excluded := Tag.exclusions r.settings.headTokens, seeds := r.seedsOf runtime.route }

/-- Begin a document: the page is what its root gives. -/
def openPage (r : Renderer σ) (root : View) : Rendering σ Unit := do
  r.firePage .beforeParse
  let page ← r.renderPage root [("page_name", .text (← context).runtime.route.page)]
  change fun ctx => { ctx with renderedPage := page }

/-- Render a document in the opening context. -/
def renderFrom (r : Renderer σ) (root : View) : Rendering σ String := do
  r.openPage root
  let ctx ← context
  r.pass ctx.excluded (r.remaining ctx)
  r.firePage .beforeParseHead
  r.pass [] (r.remaining (← context))
  r.firePage .afterRender
  return (← context).renderedPage

/-- Render the document of a root for a runtime: its text or what went wrong, and the state in which the rendering
ended. -/
def render (r : Renderer σ) (root : View) (runtime : Runtime) (listener : σ) : Except RenderError String × Run σ :=
  (r.renderFrom root).run { ctx := r.openingContext runtime, listener }

/-- Render the document of the theme that the runtime routes to. -/
def renderRoute (r : Renderer σ) (runtime : Runtime) (listener : σ) : Except RenderError String × Run σ :=
  match r.lookupTheme runtime.route.theme with
  | .ok root => r.render root runtime listener
  | .error e => (.error e, { ctx := r.openingContext runtime, listener })

end Renderer

end Folio
