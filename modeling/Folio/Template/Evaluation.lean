import Folio.Template.Filter
import Folio.Template.Node
import Folio.Template.Scope

/-!
# Evaluating templates

The value of an expression, its outcome as a test, and the text of a tree of nodes. None stands for a failure at run
time. A template that is written for markup escapes the texts that it puts out, unless they go through the filter
`safe` last.
-/

namespace Folio.Template

/-- A value, and whether it would be escaped if it were put out. -/
structure Result where
  value : Data
  escapes : Bool := false

/-- The filter that gives a value to what has none. -/
def defaultFilter : String := "default"

/-- The filter that keeps a value from being escaped. -/
def safeFilter : String := "safe"

/-- A result as the value of an expression, behind the filters `filters`. -/
def settle (markup : Bool) (filters : List Filter) (r : Result) : Data :=
  match r.value with
  | .text s =>
    if markup && r.escapes && filters.getLast?.map Filter.name ≠ some safeFilter then .text (escaped s) else .text s
  | d => d

/-- Whether numbers stand in the order of a comparison; none for the comparisons that are no order. -/
def Comparison.order? : Comparison → Option (Float → Float → Bool)
  | .less => some fun x y => x < y
  | .greater => some fun x y => y < x
  | .atMost => some fun x y => x ≤ y
  | .atLeast => some fun x y => y ≤ x
  | .equal | .unequal => none

/-- The filters begin with the one that gives a value to what has none. -/
def beginsWithDefault : List Filter → Bool
  | f :: _ => f.name = defaultFilter
  | [] => false

/-- What an operand's filters begin with: its result, or what the filter `default` gives in place of a value that is
nothing or does not exist. -/
def starting (operand : Operand) (filters : List Filter) (result? replacement? : Option Result) : Option Result :=
  match operand with
  | .access _ =>
    if beginsWithDefault filters then
      match result? with
      | some r => if r.value.same .null then replacement? else some r
      | none => replacement?
    else result?
  | _ => result?

/-- The outcome of an operand as a test, given its value behind all filters and its number. Filters only count where
they act on a place or on texts put together, and a place that has no value does not hold. -/
def Operand.outcome (value? : Option Data) (amount? : Option Amount) : Operand → Option Bool
  | .access _ => some ((value?.map Data.holds).getD false)
  | .joined _ => value?.map Data.holds
  | .int _ | .float _ | .arithmetic .. => amount?.map fun a => a.toFloat?.any (· != 0)
  | .bool b => some b
  | .text t => some !t.isEmpty
  | .call _ => none

/-- The outcome of a comparison, with `not` before it or without, given the values and the numbers of its sides. A
number is neither equal nor unequal to anything else, and `not` does not change that. -/
def Comparison.outcome (op : Comparison) (negated : Bool) (left? right? : Option Data) (a? b? : Option Amount) :
    Option Bool :=
  match op.order? with
  | some order => do return (← Amount.ordered? order (← a?) (← b?)) != negated
  | none => do
    let left ← left?
    let right ← right?
    return match equal? left right with
      | some same => (same == decide (op = .equal)) != negated
      | none => false

/-- The expression is a place that has no value, and nothing gives it one. -/
def isMissing (s : Scopes) : Expr → Bool
  | .piped (.access place) filters => !beginsWithDefault filters && (s.find? place).isNone
  | _ => false

/-- The expression is a place, with filters or without. -/
def isPlace : Expr → Bool
  | .piped (.access _) _ => true
  | _ => false

mutual

/-- The result of an operand. -/
def operandResult (markup : Bool) (s : Scopes) : Operand → Option Result
  | .access place => (s.find? place).map fun value => { value, escapes := true }
  | .int n => some { value := .int n }
  | .float bits => some { value := .float bits }
  | .bool b => some { value := .bool b }
  | .text t => some { value := .text t, escapes := true }
  | .joined parts => (joinedText markup s parts).map fun t => { value := .text t }
  | .arithmetic op left right => do
    let a ← amount markup s left
    let b ← amount markup s right
    return { value := (← Amount.compute op a b).toData }
  | .call _ => none

/-- The texts of operands, one after the other. -/
def joinedText (markup : Bool) (s : Scopes) : List Operand → Option String
  | [] => some ""
  | .float bits :: rest => do return Decimal.Layout.plain.floatText bits ++ (← joinedText markup s rest)
  | part :: rest => do
    let text ← match (← operandResult markup s part).value with
      | .text t => some t
      | .int n => some (Decimal.intText n)
      | .float bits => some (Decimal.Layout.data.floatText bits)
      | _ => none
    return text ++ (← joinedText markup s rest)

/-- The number of an operand. -/
def operandAmount (markup : Bool) (s : Scopes) : Operand → Option Amount
  | .arithmetic op left right => do
    let a ← amount markup s left
    let b ← amount markup s right
    Amount.compute op a b
  | .access place => (s.find? place).bind Amount.ofData?
  | .int n => some (.whole n)
  | .float bits => some (.fraction (Float.ofBits bits))
  | .bool _ | .text _ | .joined _ | .call _ => none

/-- The number of an expression. -/
def amount (markup : Bool) (s : Scopes) : Expr → Option Amount
  | .piped operand filters =>
    if filters.isEmpty then operandAmount markup s operand
    else do
      let r ← starting operand filters (operandResult markup s operand) (replacement markup s filters)
      Amount.ofData? (settle markup filters (← throughFilters s r filters))
  | _ => none

/-- What the filter `default` gives, if it is the first one. -/
def replacement (markup : Bool) (s : Scopes) : List Filter → Option Result
  | .named name arguments :: _ =>
    if name = defaultFilter then (argument markup s "value" arguments).map fun value => { value, escapes := true }
    else none
  | [] => none

/-- The value of an argument. -/
def argument (markup : Bool) (s : Scopes) (key : String) : List (String × Expr) → Option Data
  | [] => none
  | (k, e) :: rest =>
    if k = key && !rest.any (·.1 = key) then evaluate markup s e else argument markup s key rest

/-- What filters make of a result. -/
def throughFilters (s : Scopes) (r : Result) : List Filter → Option Result
  | [] => some r
  | .named name arguments :: rest =>
    if name = defaultFilter || name = safeFilter then throughFilters s r rest
    else do
      let value ← filtered name r.value (← argumentValues s arguments)
      throughFilters s { value, escapes := true } rest

/-- The values of the arguments of a filter; of two arguments with one name the later counts. -/
def argumentValues (s : Scopes) : List (String × Expr) → Option (Keyed Data)
  | [] => some []
  | (key, e) :: rest => do
    let value ← evaluate false s e
    let others ← argumentValues s rest
    return if others.hasKey key then others else others.insert key value

/-- The value of an expression. Put out as a value, a comparison with `not` before it is the comparison itself. -/
def evaluate (markup : Bool) (s : Scopes) : Expr → Option Data
  | .piped operand filters => do
    let r ← starting operand filters (operandResult markup s operand) (replacement markup s filters)
    return settle markup filters (← throughFilters s r filters)
  | .compare op left right =>
    (op.outcome false (evaluate markup s left) (evaluate markup s right) (amount markup s left)
      (amount markup s right)).map .bool
  | .both left right => do
    if ← outcome markup s left then (outcome markup s right).map .bool else return .bool false
  | .either left right => do
    if ← outcome markup s left then return .bool true else (outcome markup s right).map .bool
  | .negation (.compare op left right) =>
    (op.outcome true (evaluate markup s left) (evaluate markup s right) (amount markup s left)
      (amount markup s right)).map fun b => .bool !b
  | .negation e =>
    if isMissing s e then some (.bool true) else (evaluate markup s e).map fun d => .bool !d.holds

/-- The outcome of an expression as a test. With `not` before it a place that has no value holds, and one whose filters
fail does not. -/
def outcome (markup : Bool) (s : Scopes) : Expr → Option Bool
  | .piped operand filters =>
    let value? := do
      let r ← starting operand filters (operandResult markup s operand) (replacement markup s filters)
      return settle markup filters (← throughFilters s r filters)
    operand.outcome value? (operandAmount markup s operand)
  | .compare op left right =>
    op.outcome false (evaluate markup s left) (evaluate markup s right) (amount markup s left) (amount markup s right)
  | .both left right => do if ← outcome markup s left then outcome markup s right else return false
  | .either left right => do if ← outcome markup s left then return true else outcome markup s right
  | .negation (.compare op left right) =>
    op.outcome true (evaluate markup s left) (evaluate markup s right) (amount markup s left) (amount markup s right)
  | .negation e =>
    if isMissing s e then some true
    else if isPlace e then some (((evaluate markup s e).map fun d => !d.holds).getD false)
    else (outcome markup s e).map (!·)

end

/-- The turns of a loop over a value: the items of a list, the characters of a text, or the keys and values of an
object. -/
def turnsOf (key? : Option String) (name : String) (collection : Data) : Option (List Turn) :=
  match key?, collection with
  | none, .list items => some (numbered (items.map fun item => (none, item)))
  | none, .text s => some (numbered (s.toList.map fun c => (none, .text (String.singleton c))))
  | some key, .object fields => some (numbered (fields.map fun (k, v) => (some (key, k), v)))
  | _, _ => none
where
  numbered (items : List (Option (String × String) × Data)) : List Turn :=
    items.mapIdx fun index (key?, item) => { key?, name, item, index, total := items.length }

mutual

/-- The text of a node, and the scopes behind it; `inserted` gives the text of another template. -/
def Node.text? (inserted : String → Scopes → Option String) (markup : Bool) (s : Scopes) :
    Node → Option (String × Scopes)
  | .text t | .verbatim t => some (t, s)
  | .output e => (evaluate markup s e).map fun d => (d.shown, s)
  | .assign name e => (evaluate false s e).map fun d => ("", s.assign name d)
  | .insert name => (inserted name s).map fun t => (t, s)
  | .cond branches otherwise => do
    match ← branchText? inserted markup s branches with
    | some result => return result
    | none => nodesText? inserted markup s otherwise
  | .loop key? name collection body empty => do
    if !isPlace collection then failure
    let turns ← turnsOf key? name (← evaluate false s collection)
    if turns.isEmpty then nodesText? inserted markup s empty
    else
      let texts ← turns.mapM fun turn =>
        (nodesText? inserted markup (s.enter { turn? := some turn }) body).map Prod.fst
      return (String.join texts, s)

/-- The text of some nodes, and the scopes behind them. -/
def nodesText? (inserted : String → Scopes → Option String) (markup : Bool) (s : Scopes) :
    List Node → Option (String × Scopes)
  | [] => some ("", s)
  | node :: rest => do
    let (first, s) ← node.text? inserted markup s
    let (others, s) ← nodesText? inserted markup s rest
    return (first ++ others, s)

/-- The text of the first branch whose test holds, if there is one. -/
def branchText? (inserted : String → Scopes → Option String) (markup : Bool) (s : Scopes) :
    List (Expr × List Node) → Option (Option (String × Scopes))
  | [] => some none
  | (test, nodes) :: rest => do
    if ← outcome markup s test then some <$> nodesText? inserted markup s nodes
    else branchText? inserted markup s rest

end

end Folio.Template
