import Folio.Site.Config

/-!
# The views of a site

Views are found by where they lie: the files of themes and pages, and the directories of templates and wraps, in the
directory of their scheme. Their names are put in lower case. The manifest is laid over what is found.
-/

namespace Folio.Site

variable {m : Type → Type} [Monad m]

/-- The name of the view that an entry of a scheme's directory holds, if it holds one. -/
def viewName? (f : Files m) (scheme : Scheme) (dir entry : String) : m (Option String) := do
  let path := Path.join dir entry
  if scheme.isSingleFile then
    let (stem, extension?) := Path.splitExtension entry
    return if (← f.isFile path) && extension? = some viewExtension then some (Text.lower stem) else none
  else return if ← f.isDirectory path then some (Text.lower entry) else none

/-- The names of the views that some entries of a scheme's directory hold. -/
def viewNames (f : Files m) (scheme : Scheme) (dir : String) : List String → m (List String)
  | [] => return []
  | entry :: rest => do
    let name? ← viewName? f scheme dir entry
    let others ← viewNames f scheme dir rest
    return name?.toList ++ others

/-- The names of the views of a scheme, in the order of their entries. A scheme without a directory has none. -/
def schemeNames (f : Files m) (viewsDir : String) (scheme : Scheme) : m (Except SiteError (List String)) := do
  let dir := Path.join viewsDir scheme.name
  if ← f.isDirectory dir then
    match ← f.sortedNames dir with
    | .error fault => return .error (.file dir fault)
    | .ok entries => return .ok (← viewNames f scheme dir entries)
  else return .ok []

/-- Put the views of some schemes into a catalog. The number of views found is counted. -/
def discoverAll (f : Files m) (viewsDir : String) :
    List Scheme → Catalog × Nat → m (Except SiteError (Catalog × Nat))
  | [], found => return .ok found
  | scheme :: rest, (c, count) => do
    match ← schemeNames f viewsDir scheme with
    | .error e => return .error e
    | .ok names =>
      let c := names.foldl (fun c name => c.insert (.conventional scheme name)) c
      discoverAll f viewsDir rest (c, count + names.length)

/-- Put all views below a directory into a catalog. The number of views found is counted. -/
def discover (f : Files m) (c : Catalog) (viewsDir : String) : m (Except SiteError (Catalog × Nat)) :=
  discoverAll f viewsDir Scheme.all (c, 0)

/-- The catalog of a site: the wraps that are always there, the views that are found, and the manifest over them. -/
def loadCatalog (f : Files m) (site : String) (manifest : Manifest) : m (Except SiteError Catalog) := do
  let viewsDir := viewsPath site
  if ← f.isDirectory viewsDir then
    match ← discover f Catalog.builtins viewsDir with
    | .error e => return .error e
    | .ok (c, _) =>
      match c.declareAll manifest.views with
      | (c, none) => return .ok c
      | (_, some e) => return .error (.catalog e)
  else return .error (.noViews viewsDir)

end Folio.Site
