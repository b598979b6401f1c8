import Folio.Cli.Arguments
import Folio.Decode.Scalar

/-!
# Commands

What a command line can ask for: render a site, list the tags of a file, or list the views of a site.
-/

namespace Folio.Cli

/-- The name of the program. -/
def programName : String := "weave"

/-- The version of the program. -/
def programVersion : String := "0.1.0"

/-- Render a site. -/
structure RenderRequest where
  site : String
  /-- The theme to render in place of the manifest's. -/
  theme? : Option String := none
  /-- The file of the runtime, if it is not the site's. -/
  runtime? : Option String := none
  /-- The file to write the document to. -/
  out? : Option String := none
  /-- The bound of parse cycles in place of the manifest's. -/
  maxIterations? : Option Nat := none
  deriving DecidableEq, Repr

/-- List the tags of a file. -/
structure TagsRequest where
  file : String
  excluded : List String := []
  asJson : Bool := false
  deriving DecidableEq, Repr

/-- List the views of a site. -/
structure ViewsRequest where
  site : String
  asJson : Bool := false
  deriving DecidableEq, Repr

/-- What a command line asks for. -/
inductive Command
  | render (r : RenderRequest)
  | tags (r : TagsRequest)
  | views (r : ViewsRequest)
  deriving DecidableEq, Repr

namespace Command

/-- The number of a text: digits, with a plus sign before them or not, and no more than sixty-four bits. -/
def size? (s : String) : Option Nat :=
  let digits := match s.toList with
    | '+' :: rest => rest
    | cs => cs
  if digits.all Char.isDigit then (Decode.Scalar.digits? 10 digits).filter (· < Nat.pow 2 64) else none

/-- The value can be a path. -/
def isPath (s : String) : Bool := !s.isEmpty

/-- The option that every command has. -/
def verbose : Switch := { long := "verbose", letter? := some 'v' }

/-- What is understood before the name of a command. -/
def outerGrammar : Grammar := { switches := [verbose], hasVersion := true }

/-- What rendering understands. -/
def renderGrammar : Grammar where
  switches := [
    verbose,
    { long := "theme", accepts? := some fun _ => true },
    { long := "runtime", accepts? := some isPath },
    { long := "out", letter? := some 'o', accepts? := some isPath },
    { long := "max-iterations", accepts? := some fun s => (size? s).isSome }]
  acceptsOperand := isPath

/-- What listing tags understands. -/
def tagsGrammar : Grammar where
  switches := [
    verbose,
    { long := "exclude", letter? := some 'x', accepts? := some (fun _ => true), repeats := true },
    { long := "json" }]
  acceptsOperand := isPath

/-- What listing views understands. -/
def viewsGrammar : Grammar where
  switches := [verbose, { long := "json" }]
  acceptsOperand := isPath

/-- Read the words of a command, which must have an operand. -/
def readWith (g : Grammar) (words : List String) (make : String → Words → Command) : Except Stop Command :=
  match g.read {} words with
  | .error stop => .error stop
  | .ok w => match w.operands with
    | [operand] => .ok (make operand w)
    | _ => .error .mistake

/-- The commands by name, each with its reader. -/
def readers : List (String × (List String → Except Stop Command)) := [
  ("render", fun words => readWith renderGrammar words fun site w =>
    .render {
      site
      theme? := w.value? "theme"
      runtime? := w.value? "runtime"
      out? := w.value? "out"
      maxIterations? := (w.value? "max-iterations").bind size? }),
  ("tokens", fun words => readWith tagsGrammar words fun file w =>
    .tags { file, excluded := w.values "exclude", asJson := w.has "json" }),
  ("views", fun words => readWith viewsGrammar words fun site w =>
    .views { site, asJson := w.has "json" })]

/-- What a request for help comes to: it may name one command. -/
def readHelp : List String → Stop
  | [] => .help
  | [name] => if name = "help" || (readers.lookup name).isSome then .help else .mistake
  | _ => .mistake

/-- The command of a command line. -/
def read (words : List String) : Except Stop Command :=
  let outer := words.takeWhile fun word => Grammar.isOption word && word ≠ "--"
  match outerGrammar.read {} outer, words.drop outer.length with
  | .error stop, _ => .error stop
  | .ok _, [] => .error .mistake
  | .ok _, name :: rest =>
    if name = "help" then .error (readHelp rest)
    else match readers.lookup name with
      | some reader => reader rest
      | none => .error .mistake

end Command

end Folio.Cli
