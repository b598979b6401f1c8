import Folio.Cli.Command
import Folio.Cli.Failure
import Folio.Cli.Table
import Folio.Data.Json
import Folio.Render.Document
import Folio.Tag

/-!
# Running commands

What the commands do with the files of a disk, and what they write. Rendering writes a document either to the standard
output or to a file: there it is first written beside the file and then moved into its place, so that the file holds the
whole of it or what it held before.
-/

namespace Folio.Cli

variable {m : Type → Type} [Monad m]

/-- What a command leaves behind: its exit code and what it wrote. -/
structure Outcome where
  code : Nat
  stdout : String := ""
  stderr : String := ""
  deriving DecidableEq, Repr

namespace Outcome

/-- The command did what it was asked for. -/
def done (stdout : String) : Outcome := { code := 0, stdout }

/-- The command failed. -/
def failed (f : Failure) : Outcome := { code := 1, stderr := f.text ++ "\n" }

/-- The command line could not be understood. -/
def refused (text : String) : Outcome := { code := 2, stderr := text ++ "\n" }

end Outcome

/-- A text in single quotes. -/
def quoted (s : String) : String := "'" ++ s ++ "'"

/-- Why the manifest of a site is not there. -/
def manifestFailure (site : String) (e : SiteError) : Failure :=
  { message := "failed to load manifest for " ++ quoted site, causes := Failure.siteCauses e }

/-- Why the views of a site are not there. -/
def indexFailure (site : String) (e : SiteError) : Failure :=
  { message := "failed to index views of " ++ quoted site, causes := Failure.siteCauses e }

/-- Go on with what an action gives, or fail with what is made of its error. -/
def orFail {ε α : Type} (failure : ε → Failure) (action : m (Except ε α)) : ExceptT Failure m α :=
  ExceptT.mk do return (← action).mapError failure

/-- The manifest and the catalog of a site. -/
def loadSite (f : Files m) (site : String) : ExceptT Failure m (Manifest × Catalog) := do
  let manifest ← orFail (manifestFailure site) (Site.loadManifest f site)
  let catalog ← orFail (indexFailure site) (Site.loadCatalog f site manifest)
  return (manifest, catalog)

/-! ## Rendering -/

/-- A document, and the name of the theme as it was asked for. -/
structure Document where
  theme : String
  text : String

/-- The renderer of a site, which tells nobody what it does. -/
def rendererOf (catalog : Catalog) (library : Library) (settings : Settings) : Renderer Unit where
  resolve := Keyed.get? catalog
  hasTemplate := library.has
  execute := library.execute
  listener := Listener.silent
  settings

/-- The runtime that is asked for. -/
def loadRuntime (f : Files m) (r : RenderRequest) : m (Except SiteError Runtime) :=
  match r.runtime? with
  | some path => Site.loadRuntimeFile f path
  | none => Site.loadRuntime f r.site

/-- Render the document that is asked for, the templates being taken in by an engine. Nothing is written. -/
def renderDocument (f : Files m) (r : RenderRequest) (engine : Engine) : ExceptT Failure m Document := do
  let (manifest, catalog) ← loadSite f r.site
  let runtime ← orFail (fun e => { message := "failed to load runtime context", causes := Failure.siteCauses e })
    (loadRuntime f r)
  let name := r.theme?.getD manifest.theme
  let theme ← orFail (fun e => { message := CatalogError.message e }) (pure (catalog.theme name))
  let runtime := { runtime with route := { runtime.route with theme := theme.name } }
  let library ← orFail
    (fun e => { message := "failed to load view templates", causes := Failure.templatesCauses e })
    (Site.loadLibrary f (Site.viewsPath r.site) engine)
  let settings := { manifest.render with
    maxIterations := r.maxIterations?.getD manifest.render.maxIterations }
  let (result, _) := (rendererOf catalog library settings).render theme runtime ()
  let text ← orFail
    (fun e => { message := "failed to render theme " ++ quoted name, causes := Failure.renderCauses e })
    (pure result)
  return { theme := name, text }

/-- The file that a document is written to before it is moved into its place. -/
def besidePath (path : String) : String := path ++ ".weave.tmp"

/-- Write a text to a file as a whole: beside it first, and then into its place. -/
def writeWhole (d : Disk m) (path text : String) : ExceptT Failure m Unit := do
  match (Path.parent? path).filter (!·.isEmpty) with
  | none => pure ()
  | some parent => orFail (.ofFile ("cannot create " ++ quoted parent)) (d.makeDirectories parent)
  let beside := besidePath path
  orFail (.ofFile ("cannot write " ++ quoted beside)) (d.write beside text.toUTF8)
  match ← d.rename beside path with
  | .ok () => return
  | .error fault =>
    let _ ← d.remove beside
    throw (.ofFile ("cannot move output to " ++ quoted path) fault)

/-- Render a site. What is to be written to the standard output is returned. -/
def render (d : Disk m) (r : RenderRequest) (engine : Engine) : ExceptT Failure m String := do
  let document ← renderDocument d.toFiles r engine
  match r.out? with
  | none => return document.text
  | some path =>
    writeWhole d path document.text
    return "✓ rendered " ++ quoted document.theme ++ " to " ++ path ++ " (" ++
      Nat.repr document.text.utf8ByteSize ++ " bytes)\n"

/-! ## Listing tags -/

/-- A tag as data. -/
def tagData (t : Tag) : Data :=
  .object [("type", .text t.kind), ("name", .text t.name), ("wrap", .text t.wrap),
    ("attributes", .object (t.attributes.map fun (key, value) => (key, .text value))), ("raw_match", .text t.raw)]

/-- A tag as a row of a table. -/
def tagRow (t : Tag) : List String :=
  [t.kind, t.name, t.wrap, String.intercalate " " (t.attributes.map fun (key, value) => key ++ "=" ++ value)]

/-- List the tags of a file. -/
def listTags (f : Files m) (r : TagsRequest) : ExceptT Failure m String := do
  let text ← orFail (.ofFile ("cannot read " ++ quoted r.file)) (f.readText r.file)
  let tags := Tag.parse text (Tag.exclusions r.excluded)
  if r.asJson then return (Data.list (tags.map tagData)).indented "" ++ "\n"
  else if tags.isEmpty then return "No include tags found.\n"
  else return table ["type", "name", "wrap", "attributes"] (tags.map tagRow) ++ "\n"

/-! ## Listing views -/

/-- The place of a view, with slashes between the segments. -/
def shownPath (v : View) : String :=
  Text.replaceAll v.includePath "\\" "/"

/-- A view and its reference as data. -/
def viewData (reference : String) (v : View) : Data :=
  .object [("reference", .text reference), ("scheme", .text v.scheme.name), ("name", .text v.name),
    ("include_path", .text (shownPath v)), ("parameters", .object v.parameters)]

/-- A view as a row of a table. -/
def viewRow (v : View) : List String :=
  [v.scheme.name, v.name, shownPath v, if v.parameters.isEmpty then "" else (Data.object v.parameters).compact]

/-- List the views of a site. -/
def listViews (f : Files m) (r : ViewsRequest) : ExceptT Failure m String := do
  let (manifest, catalog) ← loadSite f r.site
  if r.asJson then
    return (Data.list (catalog.map fun (reference, v) => viewData reference v)).indented "" ++ "\n"
  else
    let head := "Weave v" ++ programVersion ++ " | " ++ Nat.repr catalog.length ++ " views | theme " ++ manifest.theme
    return head ++ "\n" ++ table ["scheme", "name", "include path", "parameters"] (catalog.map (viewRow ·.2)) ++ "\n"

/-! ## Command lines -/

/-- How the program is used. -/
def usage : String := String.intercalate "\n" [
  "Compose documents from themes, pages, templates and wraps",
  "",
  "Usage: weave [-v] render <SITE> [--theme <THEME>] [--runtime <FILE>] [--out <FILE>] [--max-iterations <N>]",
  "       weave [-v] tokens <FILE> [--exclude <KIND|NAME>]... [--json]",
  "       weave [-v] views <SITE> [--json]"]

/-- Do what a command asks for. -/
def perform (d : Disk m) (engine : Engine) : Command → ExceptT Failure m String
  | .render r => render d r engine
  | .tags r => listTags d.toFiles r
  | .views r => listViews d.toFiles r

/-- Do what a command line asks for, with an engine for the templates. -/
def run (d : Disk m) (words : List String) (engine : Engine := Template.engine) : m Outcome := do
  match Command.read words with
  | .error .help => return .done (usage ++ "\n")
  | .error .version => return .done (programName ++ " " ++ programVersion ++ "\n")
  | .error .mistake => return .refused usage
  | .ok command =>
    match ← (perform d engine command).run with
    | .ok text => return .done text
    | .error f => return .failed f

end Folio.Cli
