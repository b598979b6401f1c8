import Folio.Keyed
import Folio.Path
import Folio.Site.Files

/-!
# Trees of files

A tree of files as a value, with the operations of a disk on it. A path is followed segment by segment from the root;
two dots lead to the directory above, and the root is above itself. There are no links, neither of one file to several
names nor of a name to another path.
-/

namespace Folio

/-- A file with its content, or a directory with what it holds by name. Every file has one name. -/
inductive FileTree
  | file (content : ByteArray)
  | directory (entries : List (String × FileTree))
  deriving Inhabited

namespace FileTree

/-- The kind of a tree. -/
def kind : FileTree → FileKind
  | file _ => .file
  | directory _ => .directory

/-- What lies at some names below a tree. -/
def at? (t : FileTree) : List String → Except FileFault FileTree
  | [] => .ok t
  | name :: names =>
    match t with
    | file _ => .error .notDirectory
    | directory entries =>
      match Keyed.get? entries name with
      | some child => child.at? names
      | none => .error .absent

/-- The names that lead to a path when its segments are followed from `here`, the names being the last first. The
directories on the way must exist, and so must what is there before two dots. -/
def follow (t : FileTree) : (here : List String) → List String → Except FileFault (List String)
  | here, [] => .ok here
  | here, ".." :: rest =>
    match t.at? here.reverse with
    | .ok (directory _) => t.follow here.tail rest
    | .ok (file _) => .error .notDirectory
    | .error e => .error e
  | here, name :: rest =>
    match t.at? here.reverse with
    | .ok (directory _) => t.follow (name :: here) rest
    | .ok (file _) => .error .notDirectory
    | .error e => .error e

/-- The names that lead to a path from the root. -/
def namesOf (t : FileTree) (path : String) : Except FileFault (List String) :=
  if path.isEmpty then .error .absent
  else (t.follow [] (Path.segments path)).map List.reverse

/-- What lies at a path. -/
def find (t : FileTree) (path : String) : Except FileFault FileTree :=
  match t.namesOf path with
  | .error e => .error e
  | .ok names =>
    match t.at? names with
    | .ok (file content) => if Path.endsInSlash path then .error .notDirectory else .ok (file content)
    | other => other

/-- The names in the directory at a path. -/
def names (t : FileTree) (path : String) : Except FileFault (List String) :=
  match t.find path with
  | .ok (directory entries) => .ok (entries.map Prod.fst)
  | .ok (file _) => .error .notDirectory
  | .error e => .error e

/-- The content of the file at a path. -/
def read (t : FileTree) (path : String) : Except FileFault ByteArray :=
  match t.find path with
  | .ok (file content) => .ok content
  | .ok (directory _) => .error .isDirectory
  | .error e => .error e

/-! ## Changes -/

/-- The entries of a directory after one of them became something else, or nothing. -/
def entriesWith (entries : Keyed FileTree) (name : String) : Option FileTree → Keyed FileTree
  | some child => entries.insert name child
  | none => entries.erase name

/-- The tree after what lies at some names became something else, or nothing. The directories on the way must exist. -/
def put (t : FileTree) (new? : Option FileTree) : List String → FileTree
  | [] => new?.getD t
  | [name] =>
    match t with
    | directory entries => directory (entriesWith entries name new?)
    | file content => file content
  | name :: names =>
    match t with
    | directory entries =>
      match Keyed.get? entries name with
      | some child => directory (Keyed.insert entries name (child.put new? names))
      | none => directory entries
    | file content => file content

/-- The names that lead to where a file may be written: the directory above must exist, and no directory be there. -/
def placeOf (t : FileTree) (path : String) : Except FileFault (List String) :=
  match t.namesOf path with
  | .error e => .error e
  | .ok names =>
    match t.at? names with
    | .ok (directory _) => .error .isDirectory
    | .ok (file _) => if Path.endsInSlash path then .error .notDirectory else .ok names
    | .error .absent =>
      match t.at? names.dropLast with
      | .ok (directory _) => if Path.endsInSlash path then .error .isDirectory else .ok names
      | .ok (file _) => .error .notDirectory
      | .error e => .error e
    | .error e => .error e

/-- The tree with a content in the file at a path. -/
def write (t : FileTree) (path : String) (content : ByteArray) : Except FileFault FileTree :=
  (t.placeOf path).map fun names => t.put (some (file content)) names

/-- The tree without the file at a path. -/
def remove (t : FileTree) (path : String) : Except FileFault FileTree :=
  match t.find path with
  | .ok (file _) => (t.namesOf path).map fun names => t.put none names
  | .ok (directory _) => .error .isDirectory
  | .error e => .error e

/-- The tree with a file moved from one path to another. -/
def rename (t : FileTree) (source target : String) : Except FileFault FileTree :=
  match t.find source with
  | .error e => .error e
  | .ok (directory _) => .error .isDirectory
  | .ok (file content) =>
    if Path.endsInSlash target then .error .notDirectory
    else do
      let old ← t.namesOf source
      let new ← t.placeOf target
      return if old = new then t else (t.put none old).put (some (file content)) new

/-- The tree with a directory made in a directory that exists. -/
def makeDirectory (t : FileTree) (path : String) : Except FileFault FileTree :=
  match t.namesOf path with
  | .error e => .error e
  | .ok names =>
    match t.at? names with
    | .ok _ => .error .alreadyThere
    | .error .absent =>
      match t.at? names.dropLast with
      | .ok (directory _) => .ok (t.put (some (directory [])) names)
      | .ok (file _) => .error .notDirectory
      | .error e => .error e
    | .error e => .error e

/-- A directory lies at the path. -/
def hasDirectory (t : FileTree) (path : String) : Bool :=
  (t.find path).toOption.any fun found => found.kind = .directory

/-- The tree with a directory made, or the tree as it is if it has that directory. -/
def ensureDirectory (t : FileTree) (path : String) : Except FileFault FileTree :=
  match t.makeDirectory path with
  | .ok t => .ok t
  | .error e => if t.hasDirectory path then .ok t else .error e

/-- The tree with a directory made, and those above it that are missing; `bound` limits the steps upwards. -/
def makeDirectories (t : FileTree) : Nat → String → Except FileFault FileTree
  | 0, path => t.ensureDirectory path
  | bound + 1, path =>
    if path.isEmpty then .ok t
    else match t.makeDirectory path with
      | .ok t => .ok t
      | .error .absent =>
        match Path.parent? path with
        | none => .error .absent
        | some parent => do (← t.makeDirectories bound parent).ensureDirectory path
      | .error e => if t.hasDirectory path then .ok t else .error e

/-- The files of a tree. -/
def files (t : FileTree) : Files Id where
  kind? path := (t.find path).toOption.map kind
  names path := t.names path
  read path := t.read path

/-- An operation that changes the tree unless it fails. -/
def changing (op : FileTree → Except FileFault FileTree) : StateM FileTree (Except FileFault Unit) := fun t =>
  match op t with
  | .ok t => (.ok (), t)
  | .error e => (.error e, t)

/-- A disk whose state is a tree. -/
def disk : Disk (StateM FileTree) where
  kind? path := do return (← get).files.kind? path
  names path := do return (← get).names path
  read path := do return (← get).read path
  makeDirectories path := changing fun t => t.makeDirectories path.length path
  write path content := changing (·.write path content)
  rename source target := changing (·.rename source target)
  remove path := changing (·.remove path)

end FileTree

end Folio
