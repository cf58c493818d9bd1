import SheetScript.Arithmetic.Token
import SheetScript.Number.Format

/-!
# The value of an expression

`evaluate` reads an expression once from left to right. Numbers go onto a stack of values;
operators and open parentheses wait on a second stack. Before an operator waits, every waiting one
that binds at least as tightly is applied. A minus sign where an operand is expected is a sign,
which groups to the right: signs that wait are not applied before it.

The first fault met on the way decides the error, whether it lies in the text of a token, in the
order of the tokens or in a missing parenthesis.
-/

namespace SheetScript.Arithmetic

/-- What is wrong with an expression. -/
inductive Fault where
  | malformed (what : Malformed)
  /-- A number follows an operand. -/
  | numberAfterOperand (value : Float)
  /-- An open parenthesis follows an operand. -/
  | parenthesisAfterOperand
  /-- An operator that is not a sign stands where an operand is expected. -/
  | operatorWithoutOperand
  /-- A closing parenthesis stands where an operand is expected. -/
  | closeWithoutOperand
  /-- An operator finds too few values. -/
  | missingOperand
  | missingOpen
  | missingClose
  | empty
  /-- More than one value is left. -/
  | missingOperator

namespace Fault

/-- The fault lies in the row of tokens, not in the values and parentheses they leave. -/
def isSyntax : Fault → Bool
  | malformed _ | numberAfterOperand _ | parenthesisAfterOperand | operatorWithoutOperand
  | closeWithoutOperand => true
  | missingOperand | missingOpen | missingClose | empty | missingOperator => false

/-- The wording of a fault. -/
def reason : Fault → String
  | malformed (.number text) => s!"bad number \"{text}\""
  | malformed (.character c) => s!"unexpected character '{c}'"
  | numberAfterOperand value => s!"missing operator before {Number.format .plain value}"
  | parenthesisAfterOperand => "missing operator before '('"
  | operatorWithoutOperand => "operator is missing its left operand"
  | closeWithoutOperand => "missing operand before ')'"
  | missingOperand => "missing operand"
  | missingOpen => "missing '('"
  | missingClose => "missing ')'"
  | empty => "empty expression"
  | missingOperator => "missing operator"

end Fault

end SheetScript.Arithmetic

namespace SheetScript

/-- An expression with what is wrong with it. -/
structure ExpressionError where
  source : String
  fault : Arithmetic.Fault

/-- The wording of an expression error. -/
def ExpressionError.message (e : ExpressionError) : String :=
  let kind := if e.fault.isSyntax then "syntax error in expression" else "malformed expression"
  s!"{kind} \"{e.source}\": {e.fault.reason}"

namespace Arithmetic

/-- What waits on the second stack. -/
inductive Pending where
  | operator (op : Operator)
  | parenthesis
deriving DecidableEq, Repr

/-- The state of evaluation: two stacks, their tops first. -/
structure Machine where
  values : List Float := []
  pending : List Pending := []
  /-- Whether an operand comes next: at the start, after an operator, after `(`. -/
  expectOperand : Bool := true

/-- Applies an operator to the topmost values. -/
def apply (op : Operator) (values : List Float) : Except Fault (List Float) :=
  match op.compute?, values with
  | some compute, rhs :: lhs :: values => .ok (compute lhs rhs :: values)
  | none, value :: values => .ok (-value :: values)
  | _, _ => .error .missingOperand

/-- The operator `top` is applied before `op` starts to wait. -/
def appliesBefore (top op : Operator) : Bool :=
  if op = .negate then op.precedence < top.precedence else op.precedence ≤ top.precedence

/-- Applies the waiting operators that come before `op`, then lets `op` wait. -/
def pushOperator (op : Operator) (values : List Float) :
    List Pending → Except Fault (List Float × List Pending)
  | .operator top :: rest =>
    if appliesBefore top op then do pushOperator op (← apply top values) rest
    else .ok (values, .operator op :: .operator top :: rest)
  | pending => .ok (values, .operator op :: pending)

/-- Applies what waits above the innermost open parenthesis, and removes that. -/
def closeParenthesis (values : List Float) :
    List Pending → Except Fault (List Float × List Pending)
  | [] => .error .missingOpen
  | .parenthesis :: rest => .ok (values, rest)
  | .operator op :: rest => do closeParenthesis (← apply op values) rest

/-- Reads one token. -/
def step (m : Machine) (token : Token) : Except Fault Machine :=
  match token, m.expectOperand with
  | .malformed what, _ => .error (.malformed what)
  | .number value, true => .ok { m with values := value :: m.values, expectOperand := false }
  | .number value, false => .error (.numberAfterOperand value)
  | .openParenthesis, true => .ok { m with pending := .parenthesis :: m.pending }
  | .openParenthesis, false => .error .parenthesisAfterOperand
  | .operator .subtract, true => do
    let (values, pending) ← pushOperator .negate m.values m.pending
    return ⟨values, pending, true⟩
  | .operator _, true => .error .operatorWithoutOperand
  | .operator op, false => do
    let (values, pending) ← pushOperator op m.values m.pending
    return ⟨values, pending, true⟩
  | .closeParenthesis, true => .error .closeWithoutOperand
  | .closeParenthesis, false => do
    let (values, pending) ← closeParenthesis m.values m.pending
    return ⟨values, pending, false⟩

/-- Applies all that still waits, which must leave one value. -/
def finish (values : List Float) : List Pending → Except Fault Float
  | .parenthesis :: _ => .error .missingClose
  | .operator op :: rest => do finish (← apply op values) rest
  | [] =>
    match values with
    | [value] => .ok value
    | [] => .error .empty
    | _ => .error .missingOperator

/-- The value of a row of tokens. -/
def evaluateTokens (tokens : List Token) : Except Fault Float := do
  let m ← tokens.foldlM step {}
  finish m.values m.pending

/-- The value of an expression. -/
def evaluate (source : String) : Except ExpressionError Float :=
  match evaluateTokens (scan source.toList) with
  | .ok value => .ok value
  | .error fault => .error ⟨source, fault⟩

end Arithmetic

end SheetScript
