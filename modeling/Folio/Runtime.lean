import Folio.Data

/-!
# The runtime of a request

What one request brings along: the names it routes to, its primary result set, and the named data that views may read.
-/

namespace Folio

/-- The names of the views that a request routes to. An empty name routes to nothing. -/
structure Route where
  theme : String := "default"
  page : String := ""
  template : String := ""
  wrap : String := ""
  deriving Inhabited, DecidableEq

/-- The primary result set of a request. -/
structure Primary where
  data : Data := .null
  modelRegistry : Data := .null
  deriving Inhabited

/-- What views and listeners may consult while a document is rendered. -/
structure Runtime where
  route : Route := {}
  primary : Primary := {}
  /-- Named fields of the request. -/
  data : Keyed Data := []
  /-- What earlier stages computed, by name. -/
  pluginData : Keyed Data := []
  deriving Inhabited

namespace Route

/-- A route as data. -/
def toData (r : Route) : Data :=
  .object [("page", .text r.page), ("template", .text r.template), ("theme", .text r.theme), ("wrap", .text r.wrap)]

end Route

/-- A primary result set as data. -/
def Primary.toData (p : Primary) : Data :=
  .object [("data", p.data), ("model_registry", p.modelRegistry)]

/-- A runtime as data. -/
def Runtime.toData (r : Runtime) : Data :=
  .object [("data", .object r.data), ("plugin_data", .object r.pluginData), ("primary", r.primary.toData),
    ("route", r.route.toData)]

end Folio
