import Folio.Manifest

/-!
# The catalog of views

The views of a site by their references. A catalog is laid down in three layers, a later one over the earlier: the wraps
that are always there, the views found in the site's directory, and the entries of its manifest. `insert` and `declare`
put a view under its own reference, so every key of a catalog is the reference of what stands under it.
-/

namespace Folio

/-- The views that can be resolved, by reference. -/
abbrev Catalog := Keyed View

/-- What can be wrong with the declaration or the choice of a view. -/
inductive CatalogError
  /-- A declared name is blank or holds a path separator. -/
  | invalidName (name : String)
  /-- No theme has this name. -/
  | unknownTheme (name : String)
  deriving DecidableEq, Repr

/-- The wording of a catalog error. -/
def CatalogError.message : CatalogError → String
  | invalidName name =>
    "invalid view entry '" ++ name ++ "': name must be non-empty and contain no path separators"
  | unknownTheme name => "theme '" ++ name ++ "' not found"

namespace Catalog

/-- The names of the wraps that are always there. -/
def builtinWraps : List String := ["none", "div", "section"]

/-- The catalog with a view put under its reference. -/
def insert (c : Catalog) (v : View) : Catalog :=
  Keyed.insert c v.reference v

/-- The catalog of the wraps that are always there. -/
def builtins : Catalog :=
  builtinWraps.foldl (fun c name => insert c (.conventional .wrap name)) []

/-- The theme of a given name, in any case. -/
def theme (c : Catalog) (name : String) : Except CatalogError View :=
  match Keyed.get? c (reference .theme (Text.lower name)) with
  | some v => .ok v
  | none => .error (.unknownTheme name)

/-- The name of a declared view: in lower case and without white space around it. -/
def declaredName (e : ViewEntry) : String :=
  Text.lower (Text.trim e.name)

/-- A declared name can be used: it is not empty and holds no path separator. -/
def usableName (name : String) : Bool :=
  !name.isEmpty && name.toList.all fun c => c ≠ '/' && c ≠ '\x5c'

/-- A view with a declaration put over it: the place it gives, and its parameters key by key. -/
def overlay (v : View) (e : ViewEntry) : View :=
  { v with
    includePath := e.includePath.getD v.includePath
    parameters := Keyed.extend v.parameters e.parameters }

/-- The catalog with one declaration put over the view of its name, which is added if it is not there. -/
def declare (c : Catalog) (e : ViewEntry) : Except CatalogError Catalog :=
  let name := declaredName e
  if usableName name then
    let key := reference e.scheme name
    let base := (Keyed.get? c key).getD (.conventional e.scheme name)
    .ok (Keyed.insert c key (overlay base e))
  else .error (.invalidName e.name)

/-- The catalog after some declarations, up to the first that cannot be used, and what is wrong with that one. -/
def declareAll (c : Catalog) : List ViewEntry → Catalog × Option CatalogError
  | [] => (c, none)
  | e :: rest =>
    match declare c e with
    | .ok c => declareAll c rest
    | .error err => (c, some err)

end Catalog

end Folio
