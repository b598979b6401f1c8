import Folio.Render.Context
import Folio.Render.Error
import Folio.Text.Case

/-!
# The library of templates

The templates of a site by their names. A name is a path below the views directory in its normal form: in lower case,
with slashes between the segments, and without dots before the first. The templates of the wraps that are always there
lie underneath; a text of the site with the same name takes the place of one of them. What the texts say is left to an
engine of the template language: it is handed all of them by their names, and takes them in or refuses them.
-/

namespace Folio

/-- A path as the name of a template. -/
def templateName (path : String) : String :=
  Text.lower (String.ofList (dropDots (path.toList.map fun c => if c = '\x5c' then '/' else c)))
where
  dropDots : List Char → List Char
    | '.' :: '/' :: rest => dropDots rest
    | path => path

/-- Why a library cannot be made. -/
inductive LibraryError
  /-- The text of a template is not well formed. -/
  | notWellFormed (name : String)
  /-- A template extends one that does not exist. -/
  | missingParent (name parent : String)
  /-- The engine refuses the texts for a reason of its own. -/
  | refused (reason : String)
  deriving DecidableEq, Repr

/-- The wording of a library error. -/
def LibraryError.message : LibraryError → String
  | notWellFormed name => templateErrorLead ++ "Failed to parse '" ++ name ++ "'"
  | missingParent name parent =>
    templateErrorLead ++ "Template '" ++ name ++ "' is inheriting from '" ++ parent ++
      "', which doesn't exist or isn't loaded."
  | refused reason => templateErrorLead ++ reason

/-- Templates that an engine has taken in. -/
structure Library where
  /-- The names of the templates, in any order. -/
  loaded : List String
  /-- The text that the template under a name gives for some variables; none if it fails. -/
  text? : String → Keyed Data → Option String

/-- An engine of the template language: what it makes of texts by their names. -/
abbrev Engine := Keyed String → Except LibraryError Library

namespace Library

/-- The content of a row, as it is. -/
def contentText : String := "\x7b\x7b row.content \x7d\x7d"

/-- The head of a section: the title and the subtitle of its row, if it has any. -/
def sectionHead : String :=
  "<section>\x7b% if row.title %\x7d<h2>\x7b\x7b row.title \x7d\x7d</h2>\x7b% endif %\x7d" ++
    "\x7b% if row.subtitle %\x7d<h3>\x7b\x7b row.subtitle \x7d\x7d</h3>\x7b% endif %\x7d"

/-- The texts of the wraps that are always there, by name. -/
def builtinTexts : Keyed String := [
  ("wrap/div/body.tera", contentText),
  ("wrap/div/footer.tera", "</div>"),
  ("wrap/div/header.tera", "<div class=\"wrap-div\">"),
  ("wrap/none/body.tera", contentText),
  ("wrap/section/body.tera", contentText),
  ("wrap/section/footer.tera", "</section>"),
  ("wrap/section/header.tera", sectionHead)]

/-- The texts of a site laid over those that are always there. Of the site's paths with one name the greatest counts. -/
def layered (site : List (String × String)) : Keyed String :=
  Keyed.extend builtinTexts ((Keyed.ofEntries site).map fun (path, text) => (templateName path, text))

/-- The names of the templates, in order. -/
def names (l : Library) : List String :=
  l.loaded.mergeSort fun a b => !decide (b < a)

/-- A template lies at the path. -/
def has (l : Library) (path : String) : Bool :=
  l.loaded.contains (templateName path)

/-- The output of the template at a path for what it sees. -/
def execute (l : Library) (path : String) (scene : Scene) : Except RenderError String :=
  if l.has path then
    match l.text? (templateName path) scene.environment with
    | some text => .ok text
    | none => .error (.template (templateName path))
  else .error (.notFound path)

end Library

end Folio
