import Folio.Text.Find

/-!
# Paths

Paths are texts whose segments stand between slashes. Joining takes an absolute right side as it is; the parent of a
path is what stands before its last segment.
-/

namespace Folio.Path

/-- The path begins at the root. -/
def isAbsolute (path : String) : Bool :=
  path.toList.head? = some '/'

/-- A path below a directory: an absolute path stands for itself, and the directory ends in one slash before any
other. -/
def join (dir path : String) : String :=
  if isAbsolute path || dir.isEmpty then path
  else if dir.toList.getLast? = some '/' then dir ++ path
  else dir ++ "/" ++ path

/-- The path ends in a slash, so that it can only name a directory. -/
def endsInSlash (path : String) : Bool :=
  path.toList.getLast? = some '/'

/-- The segments of a path that name something: neither empty nor a single dot. -/
def segments (path : String) : List String :=
  ((Text.splitAll '/' path.toList).map String.ofList).filter fun s => s ≠ "" && s ≠ "."

/-- The end of a reversed path without the slashes and single-dot segments that name nothing. -/
def dropEmptyEnd : List Char → List Char
  | '/' :: rest => dropEmptyEnd rest
  | ['.', '/'] => ['/']
  | '.' :: '/' :: rest => dropEmptyEnd rest
  | path => path

/-- What stands before the last segment; nothing for a path without segments. -/
def parent? (path : String) : Option String :=
  let named := dropEmptyEnd path.toList.reverse
  if named.isEmpty then none
  else
    let before := named.dropWhile (· ≠ '/')
    let trimmed := dropEmptyEnd before
    some (String.ofList (if trimmed.isEmpty && !before.isEmpty then ['/'] else trimmed.reverse))

/-- The name of a file cut at its last dot into stem and extension. A name whose only dot comes first has no
extension. -/
def splitExtension (name : String) : String × Option String :=
  let reversed := name.toList.reverse
  match Text.splitFirst? '.' reversed with
  | none => (name, none)
  | some (extension, stem) =>
    if stem.isEmpty then (name, none)
    else (String.ofList stem.reverse, some (String.ofList extension.reverse))

end Folio.Path
