import Folio.Cli.Run

/-!
# The program

The command line over the files of the system.
-/

namespace Folio.Cli

/-- The fault of a code of the system, which some of its functions give as a negative number. -/
def faultOfCode (code : UInt32) (text : String) : FileFault :=
  let code := if code.toNat < Nat.pow 2 31 then code.toNat else Nat.pow 2 32 - code.toNat
  let known := [FileFault.absent, .alreadyThere, .notDirectory, .isDirectory]
  (known.find? fun fault => match fault with | .system c _ => c = code | .notText => false).getD (.system code text)

/-- The fault of a system error. -/
def faultOf : IO.Error → FileFault
  | .alreadyExists _ code text | .invalidArgument _ code text | .permissionDenied _ code text
  | .resourceExhausted _ code text | .inappropriateType _ code text | .noSuchThing _ code text
  | .otherError code text | .resourceBusy code text | .resourceVanished code text
  | .unsupportedOperation code text | .hardwareFault code text | .unsatisfiedConstraints code text
  | .illegalOperation code text | .protocolError code text | .timeExpired code text
  | .noFileOrDirectory _ code text | .interrupted _ code text => faultOfCode code text
  | .unexpectedEof => .notText
  | .userError text => .system 0 text

/-- Do something that the system may refuse. -/
def attempt {α : Type} (action : IO α) : IO (Except FileFault α) := do
  try return .ok (← action)
  catch e => return .error (faultOf e)

/-- What the system knows by a path, seen from the current directory. -/
def entryAt (path : String) : IO.FS.DirEntry :=
  { root := ".", fileName := path }

/-- What lies at a path. -/
def kindAt (path : String) : IO (Option FileKind) := do
  match ← attempt (entryAt path).path.metadata with
  | .error _ => return none
  | .ok found =>
    match found.type with
    | .dir => return some .directory
    | .file => return some .file
    | _ => return none

/-- The files of the system. -/
def systemDisk : Disk IO where
  kind? := kindAt
  names path := attempt do
    return (← (entryAt path).path.readDir).toList.map (·.fileName)
  read path := attempt (IO.FS.readBinFile path)
  makeDirectories path := attempt (IO.FS.createDirAll path)
  write path content := attempt (IO.FS.writeBinFile path content)
  rename source target := attempt (IO.FS.rename source target)
  remove path := attempt (IO.FS.removeFile path)

end Folio.Cli

/-- Run the program. -/
def main (arguments : List String) : IO UInt32 := do
  let outcome ← Folio.Cli.run Folio.Cli.systemDisk arguments
  IO.print outcome.stdout
  IO.eprint outcome.stderr
  return UInt32.ofNat outcome.code
