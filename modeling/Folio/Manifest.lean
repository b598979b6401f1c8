import Folio.View

/-!
# The manifest of a site

A manifest names the theme of a site, bounds the rendering of a document, and declares views: those that lie elsewhere
than in the usual place, and parameters for those that are found there.
-/

namespace Folio

/-- How a document is rendered. -/
structure Settings where
  /-- The most parse cycles that one document may take, both passes together. -/
  maxIterations : Nat := 100
  /-- The kinds and names of tags that wait for the second pass. -/
  headTokens : List String := ["head", "defer"]
  deriving Inhabited, DecidableEq

/-- A view as a manifest declares it. -/
structure ViewEntry where
  scheme : Scheme
  name : String
  /-- Where the files lie, if not in the usual place. -/
  includePath : Option String := none
  parameters : Parameters := []
  deriving Inhabited

/-- What a site says about itself. -/
structure Manifest where
  theme : String := "default"
  render : Settings := {}
  views : List ViewEntry := []
  deriving Inhabited

/-- Settings as data. -/
def Settings.toData (s : Settings) : Data :=
  .object [("head_tokens", .list (s.headTokens.map .text)), ("max_iterations", .int s.maxIterations)]

/-- A view as data. -/
def View.toData (v : View) : Data :=
  .object [("include_path", .text v.includePath), ("name", .text v.name), ("parameters", .object v.parameters),
    ("scheme", .text v.scheme.name)]

/-- A declared view as data; a place that is not given is left out. -/
def ViewEntry.toData (e : ViewEntry) : Data :=
  .object ((match e.includePath with | some path => [("include_path", .text path)] | none => []) ++
    [("name", .text e.name), ("parameters", .object e.parameters), ("scheme", .text e.scheme.name)])

/-- A manifest as data. -/
def Manifest.toData (m : Manifest) : Data :=
  .object [("render", m.render.toData), ("theme", .text m.theme), ("views", .list (m.views.map ViewEntry.toData))]

end Folio
