import Folio.Template.Reader
import Folio.Template.Expr

/-!
# Reading expressions

The grammar of expressions. Products bind closer than sums, sums closer than comparisons, comparisons closer than
`and`, and that closer than `or`; filters apply to what stands before them. Brackets and the arguments of filters hold
expressions of one level of nesting less, and `phrases` builds the readers level by level.
-/

namespace Folio.Template

namespace Reader

/-- Read the digits of a whole number, which begin with a zero only if that is all. -/
def wholeDigits : Reader (List Char) :=
  (do mark "0"; return ['0']) <|> do
    return (← one fun c => '1' ≤ c && c ≤ '9') :: (← run Char.isDigit)

/-- The number of some decimal digits. -/
def number (digits : List Char) : Nat :=
  digits.foldl (fun n c => n * 10 + (c.toNat - '0'.toNat)) 0

/-- Read a whole number of sixty-four bits. -/
def int : Reader Int := do
  let negative ← flag (mark "-")
  let n : Int := number (← wholeDigits)
  let n := if negative then -n else n
  if -(Nat.pow 2 63 : Int) ≤ n ∧ n < (Nat.pow 2 63 : Int) then return n else failure

/-- Read a number with a fraction. -/
def float : Reader UInt64 := do
  let negative ← flag (mark "-")
  let whole ← wholeDigits
  mark "."
  let fraction ← run1 Char.isDigit
  let x := Float.ofScientific (number (whole ++ fraction)) true fraction.length
  return (if negative then -x else x).toBits

/-- A key between quotes, as the steps of a place spell it. -/
def keyOf (s : String) : String :=
  Text.replaceAll (Text.replaceAll s "~1" "/") "~0" "~"

/-- Read one step down from a value. -/
def step : Reader String :=
  (do mark "."; return String.ofList (← run1 isNameChar)) <|> do
    mark "["
    let s ← (do
      let negative ← flag (mark "-")
      let digits ← wholeDigits
      return String.ofList (if negative then '-' :: digits else digits)) <|> (keyOf <$> quoted)
    mark "]"
    return s

/-- Read where a value lies. -/
def access : Reader Access := do
  return { variableName := ← name, steps := ← many step }

/-- Read a truth value. -/
def bool : Reader Bool :=
  (do word "true" <|> word "True"; return true) <|> (do word "false" <|> word "False"; return false)

/-- Read what names an operation of arithmetic. -/
def arithmetic : Reader Arithmetic :=
  (do mark "+"; return .plus) <|> (do mark "-"; return .minus) <|> (do mark "*"; return .times)

/-- Read what names a comparison. -/
def comparison : Reader Comparison :=
  (do mark "<="; return .atMost) <|> (do mark ">="; return .atLeast) <|> (do mark ">"; return .greater) <|>
    (do mark "<"; return .less) <|> (do mark "=="; return .equal) <|> (do mark "!="; return .unequal)

/-- Read a keyword that must be followed by space. -/
def keyword (s : String) : Reader Unit := do
  mark s
  space

end Reader

open Reader

/-- The products of a row of operands: the operations between them that are not products stay. -/
def products (first : Expr) : List (Arithmetic × Expr) → Expr × List (Arithmetic × Expr)
  | [] => (first, [])
  | (.times, e) :: rest => products (.piped (.arithmetic .times first e) []) rest
  | (op, e) :: rest =>
    let (e, rest) := products e rest
    (first, (op, e) :: rest)

/-- One expression of a row of operands and the operations between them. -/
def combined (first : Expr) (rest : List (Arithmetic × Expr)) : Expr :=
  let (first, rest) := products first rest
  rest.foldl (fun left (op, right) => .piped (.arithmetic op left right) []) first

/-- The readers of one level of nesting: operands with the arithmetic between them, and whole expressions. -/
structure Phrases where
  operand : Reader Operand
  expr : Reader Expr

/-- Read the arguments of a filter or a function, `expr` reading their values. -/
def arguments (expr : Reader Expr) : Reader (List (String × Expr)) := do
  let argument : Reader (String × Expr) := do
    let key ← token name
    token (mark "=")
    return (key, ← token expr)
  token (mark "(")
  let args ← (do
    let first ← argument
    let rest ← many (do token (mark ","); argument)
    let _ ← maybe (token (mark ","))
    return first :: rest) <|> pure []
  token (mark ")")
  return args

/-- Read the call of a function. -/
def call (expr : Reader Expr) : Reader Operand := do
  let name ← name
  let _ ← arguments expr
  return .call name

/-- Read a filter. -/
def filter (expr : Reader Expr) : Reader Filter := do
  token (mark "|")
  let name ← token name
  return .named name ((← maybe (arguments expr)).getD [])

/-- Read an operand that stands alone. -/
def simpleOperand (below : Phrases) : Reader Operand :=
  (Operand.bool <$> bool) <|> call below.expr <|> (Operand.access <$> access) <|> (Operand.float <$> float) <|>
    (Operand.int <$> int)

/-- Read a row of operands with operations between them, `item` reading each. -/
def row (item : Reader Expr) : Reader Expr := do
  let first ← item
  let rest ← many (do return (← token arithmetic, ← token item))
  return combined first rest

/-- The operand of an expression that goes through no filter. -/
def operandOf : Expr → Reader Operand
  | .piped o [] => pure o
  | _ => failure

/-- Read operands with the arithmetic between them. -/
def operandRow (below : Phrases) : Reader Operand := do
  let item : Reader Expr := Operand.plain <$> ((do
    mark "("
    let o ← token below.operand
    token (mark ")")
    return o) <|> simpleOperand below)
  operandOf (← row item)

/-- Read an operand and its filters. -/
def pipedOperand (below : Phrases) : Reader Expr := do
  let o ← operandRow below
  return .piped o (← many (filter below.expr))

/-- Read texts put together, of which there must be at least two. -/
def joinedTexts (below : Phrases) : Reader Operand := do
  let part : Reader Operand :=
    call below.expr <|> (Operand.float <$> float) <|> (Operand.int <$> int) <|> (Operand.text <$> quoted) <|>
      (Operand.access <$> access)
  let first ← part
  let second ← (do token (mark "~"); token part)
  let rest ← many (do token (mark "~"); token part)
  return .joined (first :: second :: rest)

/-- Read a text and its filters. -/
def pipedText (below : Phrases) : Reader Expr := do
  let o ← joinedTexts below <|> (Operand.text <$> quoted)
  return .piped o (← many (filter below.expr))

/-- Read one side of a comparison. -/
def side (below : Phrases) : Reader Expr :=
  pipedText below <|> row (pipedOperand below)

/-- Read a comparison, or one side alone. -/
def compared (below : Phrases) : Reader Expr := do
  let left ← side below
  match ← maybe (do return (← token comparison, ← token (side below))) with
  | none => return left
  | some (op, right) => return .compare op left right

/-- Read one test of a combination. -/
def test (below : Phrases) : Reader Expr :=
  (do
    let negations ← many (token (keyword "not"))
    let e ← token (compared below)
    return if negations.isEmpty then e else .negation e) <|> do
      token (mark "(")
      let e ← token below.expr
      token (mark ")")
      return e

/-- Read tests with the word `word` between them. -/
def tests (item : Reader Expr) (word : String) (combine : Expr → Expr → Expr) : Reader Expr := do
  let first ← item
  let rest ← many (do token (keyword word); token item)
  return rest.foldl combine first

/-- The readers of expressions whose brackets and arguments are nested at most so deep. -/
def phrases : Nat → Phrases
  | 0 => ⟨failure, failure⟩
  | depth + 1 =>
    let below := phrases depth
    { operand := operandRow below
      expr := tests (tests (test below) "and" .both) "or" .either }

/-- Read an expression. No expression is nested deeper than the brackets in the text allow. -/
def expression : Reader Expr := fun text =>
  (phrases (text.count '(' + 1)).expr text

/-- Read an operand and its filters, as a loop goes over it. -/
def container : Reader Expr := fun text =>
  pipedOperand (phrases (text.count '(' + 1)) text

end Folio.Template
