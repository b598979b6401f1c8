import Folio.Data
import Folio.Scheme

/-!
# Views

What is known of a view that a tag can resolve to: its scheme, its name in lower case, where its files lie below the
views directory, and the parameters it is given.
-/

namespace Folio

/-- A view that can be rendered. -/
structure View where
  scheme : Scheme
  name : String
  includePath : String
  parameters : Parameters := []
  deriving Inhabited

namespace View

/-- A view without parameters; its name is put in lower case. -/
def make (scheme : Scheme) (name includePath : String) : View :=
  { scheme, name := Text.lower name, includePath }

/-- The view of a name whose files lie in the usual place. -/
def conventional (scheme : Scheme) (name : String) : View :=
  make scheme name (defaultIncludePath scheme name)

/-- The key under which the view is found. -/
def reference (v : View) : String :=
  Folio.reference v.scheme v.name

/-- The text under a parameter, if it is a text. -/
def textParameter? (v : View) (key : String) : Option String :=
  (v.parameters.get? key).bind Data.text?

/-- The model that the view reads, as its parameters name it. -/
def modelName? (v : View) : Option String :=
  v.textParameter? "model_name"

/-- Where the model is to be found, as the parameters say it. -/
def modelType? (v : View) : Option String :=
  v.textParameter? "model_type"

/-- A file of the view, for a view that is a directory of files. -/
def file (v : View) (name : String) : String :=
  Path.join v.includePath name

end View

end Folio
