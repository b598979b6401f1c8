import Folio.Binding

/-!
# Rendering errors

What can end the rendering of a document, and the wording of each cause.
-/

namespace Folio

/-- Why a document could not be rendered. -/
inductive RenderError
  /-- A view has no file to render. -/
  | notFound (path : String)
  /-- No view has this reference. -/
  | unknownReference (reference : String)
  /-- A view names data that the runtime does not have. -/
  | binding (cause : BindingError)
  /-- More parse cycles were needed than allowed. -/
  | loopLimit (limit : Nat)
  /-- A template failed while it was executed. -/
  | template (name : String)
  deriving DecidableEq, Repr

/-- What stands before the text of an error that a template causes. -/
def templateErrorLead : String := "template engine error: "

/-- The wording of a rendering error. -/
def RenderError.message : RenderError → String
  | notFound path => "include target not found: " ++ path
  | unknownReference reference => "unknown view reference " ++ reference
  | binding cause => cause.message
  | loopLimit limit =>
    "render loop exceeded " ++ Nat.repr limit ++ " iterations; a template probably includes itself"
  | template name => templateErrorLead ++ "Failed to render '" ++ name ++ "'"

end Folio
