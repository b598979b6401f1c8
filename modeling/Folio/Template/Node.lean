import Folio.Template.Piece
import Folio.Text.Blank

/-!
# The tree of a template

Pieces become a tree of nodes, loops and conditions holding the nodes between their tags. On the way the white space is
removed that the tags ask for. A condition's tags act on the texts beside them; a loop with an alternative acts with its
first and last tags on both of its bodies, and the tag between the bodies does not act at all.
-/

namespace Folio

namespace Template

/-- A part of a template. -/
inductive Node
  | text (s : String)
  /-- A text that white space is never removed from. -/
  | verbatim (s : String)
  | output (e : Expr)
  | assign (name : String) (e : Expr)
  | insert (name : String)
  /-- The nodes behind the first test that holds, or else the last ones. -/
  | cond (branches : List (Expr × List Node)) (otherwise : List Node)
  /-- The body for each item of a collection, or the other nodes if it is empty. -/
  | loop (key? : Option String) (value : String) (collection : Expr) (body empty : List Node)

/-- Nodes as they are read, the latest first. -/
structure Growth where
  nodes : List Node := []
  /-- The text that follows loses the white space it begins with. -/
  trimsNext : Bool := false

namespace Growth

/-- A row of nodes that ends in a text without the white space it ends with. -/
def trimLast : List Node → List Node
  | .text s :: rest =>
    let s := Text.trimEnd s
    if s.isEmpty then rest else .text s :: rest
  | nodes => nodes

/-- The nodes with the last text trimmed if need be. -/
def endingAt (g : Growth) (trims : Bool) : List Node :=
  if trims then trimLast g.nodes else g.nodes

/-- A text follows. -/
def addText (g : Growth) (s : String) : Growth :=
  let s := if g.trimsNext then Text.trimStart s else s
  { nodes := if s.isEmpty then g.nodes else .text s :: g.nodes }

/-- A tag follows, standing for a node. -/
def add (g : Growth) (margins : Margins) (node : Node) : Growth :=
  { nodes := node :: g.endingAt margins.left, trimsNext := margins.right }

end Growth

/-- A loop or a condition whose end has not been read. -/
inductive Block
  /-- A condition, behind a test. -/
  | test (done : List (Expr × List Node)) (test : Expr)
  /-- A condition, behind its last tests. -/
  | otherwise (done : List (Expr × List Node))
  | body (margins : Margins) (key? : Option String) (value : String) (collection : Expr)
  /-- A loop, behind its body. -/
  | empty (key? : Option String) (value : String) (collection : Expr) (body : List Node)

/-- How far a tree has grown: the innermost row of nodes, and the open blocks with what stood before each. -/
structure Builder where
  growth : Growth := {}
  blocks : List (Block × Growth) := []

namespace Builder

/-- A block is opened. -/
def enter (b : Builder) (margins : Margins) (block : Block) (trims : Bool) : Builder :=
  { growth := { trimsNext := trims }
    blocks := (block, { b.growth with nodes := b.growth.endingAt margins.left }) :: b.blocks }

/-- The innermost block goes over into its next part. -/
def turn (block : Block) (outer : Growth) (blocks : List (Block × Growth)) (trims : Bool) : Builder :=
  { growth := { trimsNext := trims }, blocks := (block, outer) :: blocks }

/-- The innermost block ends as a node. -/
def leave (node : Node) (outer : Growth) (blocks : List (Block × Growth)) (trims : Bool) : Builder :=
  { growth := { nodes := node :: outer.nodes, trimsNext := trims }, blocks }

/-- The text of a raw piece with the white space removed that its tags ask for. -/
def rawText (first last : Margins) (s : String) : String :=
  let s := if first.right then Text.trimStart s else s
  if last.left then Text.trimEnd s else s

/-- A piece follows; none if it has no place here. -/
def step (b : Builder) : Piece → Option Builder
  | .text s => some { b with growth := b.growth.addText s }
  | .comment m => some { b with growth := b.growth.add m (.verbatim "") }
  | .raw first s last =>
    let margins : Margins := { left := first.left, right := last.right }
    some { b with growth := b.growth.add margins (.verbatim (rawText first last s)) }
  | .output m e => some { b with growth := b.growth.add m (.output e) }
  | .assign m name e => some { b with growth := b.growth.add m (.assign name e) }
  | .insert m name => some { b with growth := b.growth.add m (.insert name) }
  | .condOpen m e => some (b.enter m (.test [] e) m.right)
  | .loopOpen m key? value collection => some (b.enter m (.body m key? value collection) m.right)
  | .condNext m e =>
    match b.blocks with
    | (.test done test, outer) :: blocks =>
      some (turn (.test ((test, (b.growth.endingAt m.left).reverse) :: done) e) outer blocks m.right)
    | _ => none
  | .otherwise m =>
    match b.blocks with
    | (.test done test, outer) :: blocks =>
      some (turn (.otherwise ((test, (b.growth.endingAt m.left).reverse) :: done)) outer blocks m.right)
    | (.body opening key? value collection, outer) :: blocks =>
      some (turn (.empty key? value collection b.growth.nodes) outer blocks opening.right)
    | _ => none
  | .condClose m =>
    let last := (b.growth.endingAt m.left).reverse
    match b.blocks with
    | (.test done test, outer) :: blocks => some (leave (.cond ((test, last) :: done).reverse []) outer blocks m.right)
    | (.otherwise done, outer) :: blocks => some (leave (.cond done.reverse last) outer blocks m.right)
    | _ => none
  | .loopClose m =>
    let last := (b.growth.endingAt m.left).reverse
    match b.blocks with
    | (.body _ key? value collection, outer) :: blocks =>
      some (leave (.loop key? value collection last []) outer blocks m.right)
    | (.empty key? value collection body, outer) :: blocks =>
      let body := (if m.left then Growth.trimLast body else body).reverse
      some (leave (.loop key? value collection body last) outer blocks m.right)
    | _ => none

end Builder

namespace Node

/-- The tree of some pieces; none if a block is not closed or a tag has no place. -/
def ofPieces? (pieces : List Piece) : Option (List Node) := do
  let b ← pieces.foldlM Builder.step {}
  if b.blocks.isEmpty then return b.growth.nodes.reverse else failure

end Node

end Template

/-- A template: its nodes, and the template that it extends if it does. -/
structure Template where
  parent? : Option String := none
  nodes : List Template.Node := []
  deriving Inhabited

/-- The template of a text; none if the text is not well formed. -/
def Template.ofText? (text : String) : Option Template :=
  match Piece.readParent text.toList with
  | some (parent, rest) => do
    return { parent? := some parent, nodes := ← Node.ofPieces? (← Piece.readAll rest) }
  | none => do
    return { nodes := ← Node.ofPieces? (← Piece.readAll text.toList) }

end Folio
