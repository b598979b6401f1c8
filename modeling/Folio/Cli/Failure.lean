import Folio.Render.Error
import Folio.Site.Templates

/-!
# Failures of commands

A command that fails says what it could not do and why, the nearer cause first. A single cause is shown as it is,
several causes are numbered.
-/

namespace Folio.Cli

/-- Why a command failed: what it could not do, and the causes, the nearer first. -/
structure Failure where
  message : String
  causes : List String := []
  deriving DecidableEq, Repr

namespace Failure

/-- The lines of a cause, the first behind a lead and the others indented. -/
def causeText (lead indent cause : String) : String :=
  lead ++ String.intercalate ("\n" ++ indent) ((Text.splitAll '\n' cause.toList).map String.ofList)

/-- The causes, numbered. -/
def numbered (causes : List String) : List String :=
  causes.mapIdx fun i cause =>
    let number := Nat.repr i
    causeText (String.ofList (List.replicate (5 - number.length) ' ') ++ number ++ ": ") "       " cause

/-- The wording of a failure. -/
def text (f : Failure) : String :=
  "Error: " ++ f.message ++ match f.causes with
    | [] => ""
    | [cause] => "\n\nCaused by:\n" ++ causeText "    " "    " cause
    | causes => "\n\nCaused by:\n" ++ String.intercalate "\n" (numbered causes)

/-- What a file operation could not do. -/
def ofFile (message : String) (fault : FileFault) : Failure :=
  { message, causes := [fault.message] }

/-- The causes of an error in a template: the error as it shows itself to the renderer, and itself. -/
def templateCauses (text : String) : List String :=
  [text, String.ofList (text.toList.drop templateErrorLead.length)]

/-- The causes that a site error comes down to. -/
def siteCauses : SiteError → List String
  | .file path fault => [((SiteError.file path fault).message?).getD "", fault.message]
  | .content path cause =>
    let inner := (cause.placedMessage?).getD "the document is not well formed"
    [SiteError.contentLead path ++ ": " ++ inner, inner]
  | e => [(e.message?).getD ""]

/-- The causes that an error in loading templates comes down to. -/
def templatesCauses : TemplatesError → List String
  | .file path fault => [(TemplatesError.file path fault).message, fault.message]
  | .library cause => templateCauses cause.message

/-- The causes that a rendering error comes down to. -/
def renderCauses : RenderError → List String
  | .template name => templateCauses (RenderError.template name).message
  | e => [e.message]

end Failure

end Folio.Cli
