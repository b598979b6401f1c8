/-!
# Files

What is asked of whoever keeps the files: `Files` to look at them and read them, `Disk` to change them as well. Both are
records of operations in a monad, so that one program runs over real files and over a tree of files that is a value.
-/

namespace Folio

/-- Why an operation on a file failed. -/
inductive FileFault
  /-- The system refused it, with a code and a text of its own. -/
  | system (code : Nat) (text : String)
  /-- The content is no text. -/
  | notText
  deriving DecidableEq, Repr

namespace FileFault

/-- Nothing lies at the path. -/
def absent : FileFault := system 2 "No such file or directory"

/-- Something lies there already. -/
def alreadyThere : FileFault := system 17 "File exists"

/-- The path goes through something that is no directory. -/
def notDirectory : FileFault := system 20 "Not a directory"

/-- A directory lies where a file is wanted. -/
def isDirectory : FileFault := system 21 "Is a directory"

/-- The wording of a fault. -/
def message : FileFault → String
  | system code text => text ++ " (os error " ++ Nat.repr code ++ ")"
  | notText => "stream did not contain valid UTF-8"

end FileFault

/-- What can lie at a path. -/
inductive FileKind
  | file
  | directory
  deriving DecidableEq, Repr

/-- Files to read from. -/
structure Files (m : Type → Type) where
  /-- What lies at a path. -/
  kind? : String → m (Option FileKind)
  /-- The names in a directory, in any order. -/
  names : String → m (Except FileFault (List String))
  /-- The content of a file. -/
  read : String → m (Except FileFault ByteArray)

/-- Files to read from and to write to. -/
structure Disk (m : Type → Type) extends Files m where
  /-- Make a directory, and those above it that are missing. -/
  makeDirectories : String → m (Except FileFault Unit)
  /-- Put a content into a file, which is made if it is not there. -/
  write : String → ByteArray → m (Except FileFault Unit)
  /-- Give a file another path, in the place of a file that lies there. -/
  rename : String → String → m (Except FileFault Unit)
  /-- Take a file away. -/
  remove : String → m (Except FileFault Unit)

namespace Files

variable {m : Type → Type} [Monad m]

/-- A directory lies at the path. -/
def isDirectory (f : Files m) (path : String) : m Bool := do
  return (← f.kind? path) = some .directory

/-- A file lies at the path. -/
def isFile (f : Files m) (path : String) : m Bool := do
  return (← f.kind? path) = some .file

/-- Something lies at the path. -/
def isThere (f : Files m) (path : String) : m Bool := do
  return (← f.kind? path).isSome

/-- The text of a content. -/
def textOf (content : ByteArray) : Except FileFault String :=
  match String.fromUTF8? content with
  | some text => .ok text
  | none => .error .notText

/-- The text of a file. -/
def readText (f : Files m) (path : String) : m (Except FileFault String) := do
  return (← f.read path).bind textOf

/-- The names in a directory, in the order of their characters. -/
def sortedNames (f : Files m) (path : String) : m (Except FileFault (List String)) := do
  return (← f.names path).map fun names => names.mergeSort fun a b => !decide (b < a)

end Files

end Folio
