import Folio.Keyed
import Folio.Template.Value

/-!
# Scopes

Where the variables of a template are looked up. Each loop and each inserted template has a scope of its own, with
what it assigns and, in a loop, the current item; around all of them stand the variables that the template is given. A
place is sought from the innermost scope outwards, and it is the first scope in which the whole place exists that
counts.
-/

namespace Folio.Template

/-- The current turn of a loop. -/
structure Turn where
  /-- The name of the key and its current text, in a loop over keys and values. -/
  key? : Option (String × String) := none
  /-- The name of the item. -/
  name : String
  item : Data
  index : Nat
  total : Nat

namespace Turn

/-- What a loop says about its turn. -/
def about? (t : Turn) : List String → Option Data
  | ["index"] => some (.int (t.index + 1))
  | ["index0"] => some (.int t.index)
  | ["first"] => some (.bool (t.index = 0))
  | ["last"] => some (.bool (t.index + 1 = t.total))
  | _ => none

/-- The value that lies at a place in the turn of a loop. -/
def find? (t : Turn) (place : Access) : Option Data :=
  match t.key? with
  | some (name, key) =>
    if place.variableName = name && place.steps.isEmpty then some (.text key) else inItem place
  | none => inItem place
where
  inItem (place : Access) : Option Data :=
    if place.variableName = "loop" then t.about? place.steps
    else if place.variableName = t.name then t.item.descend? place.steps
    else none

end Turn

/-- The variables of one part of a template. -/
structure Scope where
  assigned : Keyed Data := []
  turn? : Option Turn := none

/-- The value that lies at a place in a scope. -/
def Scope.find? (s : Scope) (place : Access) : Option Data :=
  match (s.assigned.get? place.variableName).bind (·.descend? place.steps) with
  | some d => some d
  | none => s.turn?.bind (·.find? place)

/-- The scopes around a point of a template: the innermost, and those around it from the inside. -/
structure Scopes where
  inner : Scope := {}
  outer : List Scope := []

namespace Scopes

/-- The value that lies at a place. -/
def find? (s : Scopes) (place : Access) : Option Data :=
  (s.inner :: s.outer).findSome? (·.find? place)

/-- The scopes inside a new one. -/
def enter (s : Scopes) (scope : Scope) : Scopes :=
  { inner := scope, outer := s.inner :: s.outer }

/-- A variable is assigned in the innermost scope. -/
def assign (s : Scopes) (name : String) (value : Data) : Scopes :=
  { s with inner := { s.inner with assigned := s.inner.assigned.insert name value } }

/-- The scopes of a template that is given some variables. -/
def ofEnvironment (environment : Keyed Data) : Scopes :=
  { outer := [{ assigned := environment }] }

end Scopes

end Folio.Template
