import Folio.Data
import Folio.Decimal.Layout
import Folio.Template.Expr

/-!
# Values in templates

How data counts in a test, how it is put out, and how numbers are compared and computed with. Whole numbers are computed
with exactly, within sixty-four bits, as long as both are whole; everything else is computed with as fractions.
-/

namespace Folio

namespace Data

/-- The value holds in a test: it is neither nothing, false nor zero, and it is not empty. -/
def holds : Data → Bool
  | null => false
  | bool b => b
  | int n => n ≠ 0
  | float bits => Float.ofBits bits != 0
  | text s => !s.isEmpty
  | list items => !items.isEmpty
  | object fields => !fields.isEmpty

mutual

/-- The value as a template puts it out. -/
def shown : Data → String
  | null => ""
  | bool b => if b then "true" else "false"
  | int n => Decimal.intText n
  | float bits => Decimal.Layout.plain.floatText bits
  | text s => s
  | list items => "[" ++ String.intercalate ", " (shownItems items) ++ "]"
  | object _ => "[object]"

/-- The items of a list as a template puts them out. -/
def shownItems : List Data → List String
  | [] => []
  | item :: rest => shown item :: shownItems rest

end

/-- The index into a list that a step spells: its digits, without a zero before them. -/
def index? (step : String) : Option Nat :=
  let cs := step.toList
  if cs.isEmpty || !cs.all Char.isDigit || (cs.length > 1 && cs.head? = some '0') then none
  else some (cs.foldl (fun n c => n * 10 + (c.toNat - '0'.toNat)) 0)

/-- The value one step down, by key in an object or by index in a list. -/
def child? (d : Data) (step : String) : Option Data :=
  match d with
  | object fields => Keyed.get? fields step
  | list items => (index? step).bind (items[·]?)
  | _ => none

/-- The value some steps down. -/
def descend? (d : Data) (steps : List String) : Option Data :=
  steps.foldlM child? d

end Data

namespace Template

/-- A number in arithmetic. -/
inductive Amount
  | whole (n : Int)
  | fraction (x : Float)
  /-- The result of an operation that leaves the finite numbers. -/
  | beyond

namespace Amount

/-- The number that a value is. -/
def ofData? : Data → Option Amount
  | .int n => some (whole n)
  | .float bits => some (fraction (Float.ofBits bits))
  | _ => none

/-- The number as a value. -/
def toData : Amount → Data
  | whole n => .int n
  | fraction x => .float x.toBits
  | beyond => .text "NaN"

/-- The number as a fraction; none if it is not finite. -/
def toFloat? : Amount → Option Float
  | whole n => some (Float.ofInt n)
  | fraction x => some x
  | beyond => none

/-- The whole number fits into sixty-four bits with a sign. -/
def fitsSigned (n : Int) : Bool :=
  -(Nat.pow 2 63 : Int) ≤ n && n < (Nat.pow 2 63 : Int)

/-- The whole number fits into sixty-four bits without a sign. -/
def fitsUnsigned (n : Int) : Bool :=
  0 ≤ n && n < (Nat.pow 2 64 : Int)

/-- The operation on whole numbers. -/
def onWhole : Arithmetic → Int → Int → Int
  | .plus, a, b => a + b
  | .minus, a, b => a - b
  | .times, a, b => a * b

/-- The operation on fractions. -/
def onFractions : Arithmetic → Float → Float → Float
  | .plus, a, b => a + b
  | .minus, a, b => a - b
  | .times, a, b => a * b

/-- The operation on fractions, with a result beyond the finite numbers told apart. -/
def fractional (op : Arithmetic) (a b : Float) : Amount :=
  let x := onFractions op a b
  if x.isFinite then fraction x else beyond

/-- The result of an operation; none if it is whole and leaves its sixty-four bits. -/
def compute (op : Arithmetic) : Amount → Amount → Option Amount
  | whole a, whole b =>
    let n := onWhole op a b
    if fitsSigned a && fitsSigned b then if fitsSigned n then some (whole n) else none
    else if fitsUnsigned a && fitsUnsigned b then if fitsUnsigned n then some (whole n) else none
    else some (fractional op (Float.ofInt a) (Float.ofInt b))
  | a, b =>
    match a.toFloat?, b.toFloat? with
    | some x, some y => some (fractional op x y)
    | _, _ => some beyond

/-- Whether one number stands in an order to another; none where one of them is not finite. -/
def ordered? (op : Float → Float → Bool) (a b : Amount) : Option Bool := do
  return op (← a.toFloat?) (← b.toFloat?)

end Amount

/-- The values are equal. Numbers are compared as fractions; a number and anything else are neither equal nor unequal.
-/
def equal? (a b : Data) : Option Bool :=
  match (Amount.ofData? a).bind Amount.toFloat?, (Amount.ofData? b).bind Amount.toFloat? with
  | some x, some y => some (x == y)
  | none, none => some (a.same b)
  | _, _ => none

/-- What a template writes in place of a character that markup gives a meaning. -/
def escapedChar (c : Char) : List Char :=
  match c with
  | '&' => ['&', 'a', 'm', 'p', ';']
  | '<' => ['&', 'l', 't', ';']
  | '>' => ['&', 'g', 't', ';']
  | '\x22' => ['&', 'q', 'u', 'o', 't', ';']
  | '\x27' => ['&', '#', 'x', '2', '7', ';']
  | '/' => ['&', '#', 'x', '2', 'F', ';']
  | _ => [c]

/-- A text with the characters replaced that markup gives a meaning. -/
def escaped (s : String) : String :=
  String.ofList (s.toList.flatMap escapedChar)

end Template

end Folio
