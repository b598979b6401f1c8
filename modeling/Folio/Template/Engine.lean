import Folio.Template.Evaluation
import Folio.Template.Library

/-!
# An engine for templates

An engine for a part of the template language: values, assignments, conditions, loops, templates that are inserted, and
templates that extend another. It reads all texts in the order of their names, and reports the first that is not well
formed or, if all are, the first that extends one that is not there.
-/

namespace Folio

namespace Template

/-- Read the templates of some texts in order, up to the first that is not well formed. -/
def readTexts : Keyed String → Except LibraryError (Keyed Template)
  | [] => .ok []
  | (name, text) :: rest =>
    match ofText? text with
    | none => .error (.notWellFormed name)
    | some t => (readTexts rest).map fun ts => (name, t) :: ts

/-- The first template that extends one that does not exist, with the name of that one. -/
def missingParent? (templates : Keyed Template) : Option (String × String) :=
  templates.findSome? fun (name, t) =>
    (t.parent?.filter (!templates.hasKey ·)).map fun parent => (name, parent)

/-- The nodes that are executed for a template: those of the last one that it extends, directly or through others.
`bound` limits the steps. -/
def rootNodes? (find? : String → Option Template) : Nat → Template → Option (List Node)
  | 0, _ => none
  | bound + 1, t =>
    match t.parent? with
    | none => some t.nodes
    | some parent => (find? parent).bind (rootNodes? find? bound)

/-- The text of a template that is inserted into another. Templates are inserted into each other at most `depth` deep.
-/
def inserted (find? : String → Option Template) (markup : Bool) : Nat → String → Scopes → Option String
  | 0, _, _ => none
  | depth + 1, name, scopes => do
    let t ← find? name
    let (text, _) ← nodesText? (inserted find? markup depth) markup (scopes.enter {}) t.nodes
    return text

/-- How deep templates may be inserted into each other. -/
def insertionDepth : Nat := 500

/-- The name is that of a template that is written for markup. -/
def isMarkup (name : String) : Bool :=
  [".html", ".htm", ".xml"].any fun ending => ending.toList.isSuffixOf name.toList

/-- The text that a template gives under a name for some variables, among `count` templates; none if it fails. -/
def shown? (find? : String → Option Template) (count : Nat) (name : String) (t : Template)
    (environment : Keyed Data) : Option String := do
  let nodes ← rootNodes? find? (count + 1) t
  let markup := isMarkup name
  let (text, _) ← nodesText? (inserted find? markup insertionDepth) markup (.ofEnvironment environment) nodes
  return text

/-- The engine: it takes in texts that are well formed and extend nothing that is not there. -/
def engine : Engine := fun texts =>
  match readTexts texts with
  | .error e => .error e
  | .ok templates =>
    match missingParent? templates with
    | some (name, parent) => .error (.missingParent name parent)
    | none => .ok {
        loaded := templates.map Prod.fst
        text? := fun name environment =>
          (templates.get? name).bind fun t => shown? templates.get? templates.length name t environment }

end Template

/-- The library that an engine makes of the texts of a site, given by their paths. -/
def Library.ofTexts (site : List (String × String)) (engine : Engine := Template.engine) : Except LibraryError Library :=
  engine (layered site)

end Folio
