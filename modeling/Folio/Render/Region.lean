import Folio.Render.Renderer

/-!
# Rendering one view

A theme or a page is one file. A template is a directory: with a `custom` file, that file is executed once and sees
every row; without one, each row is decorated with its place among the rows and goes through the regions `header`
(first row), `body` (every row) and `footer` (last row), with an event before each region. A wrap is a directory of
the same regions around a content, without events. A region without a file adds nothing, but a directory without any
of its files is not found.
-/

namespace Folio

/-- A part of a template or a wrap, each with a file of its own. -/
inductive Region
  | custom
  | header
  | body
  | footer
  deriving DecidableEq, Repr

namespace Region

/-- The file of a region. -/
def fileName : Region → String
  | custom => "custom.tera"
  | header => "header.tera"
  | body => "body.tera"
  | footer => "footer.tera"

/-- The regions of a template. -/
def ofTemplate : List Region := [custom, header, body, footer]

/-- The regions of a wrap. -/
def ofWrap : List Region := [header, body, footer]

end Region

/-- The word for the row after one with the given word: odd and even take turns. -/
def nextParity (parity : String) : String :=
  if parity = "odd" then "even" else "odd"

/-- The place of the row at `index` among `total` rows, as fields of the row and parameters of the view. -/
def placeFields (parity : String) (index total : Nat) : Keyed Data :=
  [("even_or_odd", .text parity),
    ("first", .bool (index = 0)),
    ("last_row", .bool (index + 1 = total)),
    ("row_count", .int (index + 1)),
    ("total_rows", .int total)]

/-- The row that surrounds the content of a wrap. -/
def wrapRow (content : String) : Row :=
  [("content", .text content), ("subtitle", .text ""), ("title", .text "")]

namespace Renderer

variable {σ : Type}

/-- The path of a region of a view. -/
def regionPath (v : View) (region : Region) : String :=
  v.file region.fileName

/-- The view has a file for one of the regions. -/
def hasAnyRegion (r : Renderer σ) (v : View) (regions : List Region) : Bool :=
  regions.any fun region => r.hasTemplate (regionPath v region)

/-- Render a theme or a page. -/
def renderPage (r : Renderer σ) (v : View) (row : Row) : Rendering σ String := do
  if r.hasTemplate v.includePath then
    r.run v.includePath ((← context).scene row)
  else throw (.notFound v.includePath)

/-- Execute a region for a row and add its output to the view; a region without a file adds nothing. -/
def appendRegion (r : Renderer σ) (v : View) (region : Region) (row : Row) : Rendering σ Unit := do
  let path := regionPath v region
  if r.hasTemplate path then
    let output ← r.run path ((← context).scene row)
    change fun ctx => { ctx with renderedView := ctx.renderedView ++ output }

/-- Fire an event for a row. The answer is the row to go on with. -/
def fireRow (r : Renderer σ) (event : Event) (row : Row) : Rendering σ Row := do
  let outcome ← r.fire event ((← context).viewPayload (some (.object row)))
  return outcome.row?.getD row

/-- Render one row of a template: the row at `index` of `total`, with the word of its turn. -/
def renderRow (r : Renderer σ) (v : View) (total index : Nat) (parity : String) (row : Row) : Rendering σ Unit := do
  let place := placeFields parity index total
  change fun ctx => { ctx with parameters := Keyed.extend ctx.parameters place }
  let mut row := Keyed.extend row place
  if index = 0 then
    row ← r.fireRow .beforeRenderViewHead row
    r.appendRegion v .header row
  row ← r.fireRow .beforeRenderViewItem row
  r.appendRegion v .body row
  if index + 1 = total then
    row ← r.fireRow .beforeRenderViewFooter row
    r.appendRegion v .footer row
  let final := row
  change fun ctx => { ctx with rows := ctx.rows.set index final }

/-- Render the rows of a template, the first of them being the row at `index` of `total`. -/
def renderRows (r : Renderer σ) (v : View) (total : Nat) : Nat → String → List Row → Rendering σ Unit
  | _, _, [] => return
  | index, parity, row :: rest => do
    r.renderRow v total index parity row
    r.renderRows v total (index + 1) (nextParity parity) rest

/-- Render a template. -/
def renderTemplate (r : Renderer σ) (v : View) : Rendering σ String := do
  if !r.hasAnyRegion v Region.ofTemplate then throw (.notFound v.includePath)
  let custom := regionPath v .custom
  if r.hasTemplate custom then
    let ctx ← context
    let output ← r.run custom (ctx.scene (ctx.rows.head?.getD []))
    change fun ctx => { ctx with renderedView := output }
    return output
  else
    change fun ctx => { ctx with renderedView := "" }
    let rows := (← context).rows
    r.renderRows v rows.length 0 "odd" rows
    return (← context).renderedView

/-- Execute the regions of a wrap and put their outputs together. -/
def runRegions (r : Renderer σ) (v : View) (scene : Scene) : List Region → Rendering σ String
  | [] => return ""
  | region :: rest => do
    let path := regionPath v region
    let output ← if r.hasTemplate path then r.run path scene else pure ""
    return output ++ (← r.runRegions v scene rest)

/-- Render a wrap around a content. It sees its own parameters and the row of the content, and nothing of the view that
it surrounds. -/
def renderWrap (r : Renderer σ) (v : View) (content : String) : Rendering σ String := do
  if !r.hasAnyRegion v Region.ofWrap then throw (.notFound v.includePath)
  let row := wrapRow content
  let scene : Scene :=
    { row, rows := [row], parameters := v.parameters, modelRegistry := .null, runtime := (← context).runtime }
  r.runRegions v scene Region.ofWrap

/-- Render a view as its scheme says. A wrap surrounds what the current view has rendered. -/
def renderView (r : Renderer σ) (v : View) : Rendering σ String :=
  match v.scheme with
  | .theme | .page => do r.renderPage v ((← context).rows.head?.getD [])
  | .template => r.renderTemplate v
  | .wrap => do r.renderWrap v (← context).renderedView

end Renderer

end Folio
