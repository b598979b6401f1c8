import Folio.Data

/-!
# Expressions of templates

An expression is an operand that goes through filters, a comparison, or a combination of tests. Operands are values,
places of values, texts put together and arithmetic.
-/

namespace Folio.Template

/-- Where a value lies: a variable, and the steps down from it by key or by index. -/
structure Access where
  variableName : String
  steps : List String := []
  deriving DecidableEq, Repr, Inhabited

/-- The operations of arithmetic. -/
inductive Arithmetic
  | plus
  | minus
  | times
  deriving DecidableEq, Repr

/-- How two values are compared. -/
inductive Comparison
  | equal
  | unequal
  | less
  | greater
  | atMost
  | atLeast
  deriving DecidableEq, Repr

mutual

/-- What a value is first taken from. -/
inductive Operand
  | access (place : Access)
  | int (value : Int)
  | float (bits : UInt64)
  | bool (value : Bool)
  | text (value : String)
  /-- The texts of several operands, one after the other. -/
  | joined (parts : List Operand)
  | arithmetic (op : Arithmetic) (left right : Expr)
  /-- The call of a function. -/
  | call (name : String)

/-- A filter with its named arguments. -/
inductive Filter
  | named (name : String) (arguments : List (String × Expr))

/-- What has a value. -/
inductive Expr
  | piped (operand : Operand) (filters : List Filter)
  | compare (op : Comparison) (left right : Expr)
  | both (left right : Expr)
  | either (left right : Expr)
  | negation (e : Expr)

end

instance : Inhabited Operand := ⟨.bool false⟩

instance : Inhabited Expr := ⟨.piped default []⟩

/-- The name of a filter. -/
def Filter.name : Filter → String
  | named name _ => name

/-- The arguments of a filter. -/
def Filter.arguments : Filter → List (String × Expr)
  | named _ arguments => arguments

/-- An operand as it is. -/
def Operand.plain (o : Operand) : Expr := .piped o []

end Folio.Template
