import Folio.Catalog
import Folio.Decode.Model
import Folio.Site.Files
import Folio.Yaml.Document

/-!
# The configuration of a site

A site is a directory. Its manifest and its runtime lie in it, and each of them may be missing, which is the same as an
empty one. A runtime that is asked for by its own path must exist.
-/

namespace Folio

/-- Why a site could not be loaded. -/
inductive SiteError
  /-- A file could not be read. -/
  | file (path : String) (fault : FileFault)
  /-- A file does not hold what it should. -/
  | content (path : String) (cause : Decode.DecodeError)
  /-- The site has no directory of views. -/
  | noViews (path : String)
  /-- A view is declared that cannot be used, or a theme is asked for that is not there. -/
  | catalog (cause : CatalogError)
  deriving DecidableEq, Repr

namespace SiteError

/-- How the wording of a content error begins. -/
def contentLead (path : String) : String := "failed to parse " ++ path

/-- The wording of a site error; none for a file that is no well-formed document. -/
def message? : SiteError → Option String
  | file path fault => some ("I/O error at " ++ path ++ ": " ++ fault.message)
  | content path cause => cause.placedMessage?.map fun text => contentLead path ++ ": " ++ text
  | noViews path => some ("views directory not found at " ++ path)
  | catalog cause => some cause.message

end SiteError

namespace Site

/-- Where the manifest of a site lies. -/
def manifestPath (site : String) : String := Path.join site "weave.yaml"

/-- Where the runtime of a site lies. -/
def runtimePath (site : String) : String := Path.join site "runtime.yaml"

/-- Where the views of a site lie. -/
def viewsPath (site : String) : String := Path.join site "views"

variable {m : Type → Type} [Monad m]

/-- Read a configuration file. -/
def readConfig {α : Type} (f : Files m) (read : Decode.Source → Except Decode.DecodeError α) (path : String) :
    m (Except SiteError α) := do
  match ← f.readText path with
  | .error fault => return .error (.file path fault)
  | .ok text => return (Yaml.decode read text).mapError (.content path)

/-- Read a configuration file if it is there. -/
def readConfigOr {α : Type} (f : Files m) (read : Decode.Source → Except Decode.DecodeError α) (absent : α)
    (path : String) : m (Except SiteError α) := do
  if ← f.isThere path then readConfig f read path else return .ok absent

/-- The manifest of a site. -/
def loadManifest (f : Files m) (site : String) : m (Except SiteError Manifest) :=
  readConfigOr f Manifest.record.read {} (manifestPath site)

/-- The runtime of a site. -/
def loadRuntime (f : Files m) (site : String) : m (Except SiteError Runtime) :=
  readConfigOr f Runtime.record.read {} (runtimePath site)

/-- The runtime in a file. -/
def loadRuntimeFile (f : Files m) (path : String) : m (Except SiteError Runtime) :=
  readConfig f Runtime.record.read path

end Site

end Folio
