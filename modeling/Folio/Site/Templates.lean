import Folio.Render.Region
import Folio.Site.Views
import Folio.Template.Engine

/-!
# The templates of a site

Only the files of views are read: those of themes and pages, and the region files in the directories of templates and
wraps. Whatever else lies below the views directory is not looked into.
-/

namespace Folio

/-- Why the templates of a site could not be loaded. -/
inductive TemplatesError
  /-- A file or a directory could not be read. -/
  | file (path : String) (fault : FileFault)
  /-- The texts make no library. -/
  | library (cause : LibraryError)
  deriving DecidableEq, Repr

/-- The wording of an error in loading templates. -/
def TemplatesError.message : TemplatesError → String
  | file path fault => "template io error at " ++ path ++ ": " ++ fault.message
  | library cause => cause.message

namespace Site

variable {m : Type → Type} [Monad m]

/-- The paths of the region files in a view's directory. -/
def regionFiles (f : Files m) (viewsDir viewDir : String) : List Region → m (List String)
  | [] => return []
  | region :: rest => do
    let path := Path.join viewDir region.fileName
    let isThere ← f.isFile (Path.join viewsDir path)
    let others ← regionFiles f viewsDir viewDir rest
    return if isThere then path :: others else others

/-- The paths of the view files that an entry of a scheme's directory holds, below the views directory. -/
def entryFiles (f : Files m) (viewsDir : String) (scheme : Scheme) (entry : String) : m (List String) := do
  let path := Path.join scheme.name entry
  if scheme.isSingleFile then
    let isThere ← f.isFile (Path.join viewsDir path)
    return if isThere && (Path.splitExtension entry).2 = some viewExtension then [path] else []
  else if ← f.isDirectory (Path.join viewsDir path) then regionFiles f viewsDir path Region.ofTemplate
  else return []

/-- The paths of the view files that some entries of a scheme's directory hold. -/
def entriesFiles (f : Files m) (viewsDir : String) (scheme : Scheme) : List String → m (List String)
  | [] => return []
  | entry :: rest => do
    let first ← entryFiles f viewsDir scheme entry
    let others ← entriesFiles f viewsDir scheme rest
    return first ++ others

/-- The paths of the view files of some schemes, below the views directory. -/
def viewFiles (f : Files m) (viewsDir : String) : List Scheme → m (Except TemplatesError (List String))
  | [] => return .ok []
  | scheme :: rest => do
    let dir := Path.join viewsDir scheme.name
    if ← f.isDirectory dir then
      match ← f.sortedNames dir with
      | .error fault => return .error (.file dir fault)
      | .ok entries =>
        let first ← entriesFiles f viewsDir scheme entries
        return (← viewFiles f viewsDir rest).map (first ++ ·)
    else viewFiles f viewsDir rest

/-- The texts of some files below the views directory, each with the name of its template. -/
def readTemplates (f : Files m) (viewsDir : String) : List String → m (Except TemplatesError (List (String × String)))
  | [] => return .ok []
  | path :: rest => do
    let full := Path.join viewsDir path
    match ← f.readText full with
    | .error fault => return .error (.file full fault)
    | .ok text => return (← readTemplates f viewsDir rest).map ((templateName path, text) :: ·)

/-- The library that an engine makes of the templates below a views directory; without the directory, of those that are
always there. -/
def loadLibrary (f : Files m) (viewsDir : String) (engine : Engine := Template.engine) :
    m (Except TemplatesError Library) := do
  if ← f.isDirectory viewsDir then
    match ← viewFiles f viewsDir Scheme.all with
    | .error e => return .error e
    | .ok paths =>
      match ← readTemplates f viewsDir paths with
      | .error e => return .error e
      | .ok texts => return (Library.ofTexts texts engine).mapError .library
  else return (Library.ofTexts [] engine).mapError .library

end Site

end Folio
