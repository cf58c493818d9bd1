import SheetScript.Formula.Error
import SheetScript.Formula.Token
import SheetScript.Number.Read

/-!
# From infix text to postfix order

`parse` reads a formula, with or without the equals sign in front, token by token. Operands go
straight to the output. Operators, functions and open parentheses wait on a stack: an operator
leaves it when one that binds no tighter arrives, and everything down to the matching parenthesis
leaves it at a closing parenthesis or a comma. A function follows the parenthesis that closes its
arguments.

The first offending token decides the error. Only when all tokens are read does an open parenthesis
count as unmatched, and only then are the operands counted.
-/

namespace SheetScript.Formula

/-- What waits on the stack while a formula is read. -/
inductive Pending where
  | operator (op : Operator)
  | function (f : Function)
  | parenthesis
deriving DecidableEq, Repr

/-- The state of reading: nodes already in postfix order, the last one first, and the stack. -/
structure Reading where
  output : List Node := []
  pending : List Pending := []

namespace Reading

/-- Adds a node to the output. -/
def push (r : Reading) (node : Node) : Reading := { r with output := node :: r.output }

/-- Moves to the output the operators that bind at least as tightly as `op`. -/
def yieldTo (op : Operator) (output : List Node) : List Pending → Reading
  | .operator top :: rest =>
    if top.precedence < op.precedence then ⟨output, .operator top :: rest⟩
    else yieldTo op (.operator top :: output) rest
  | pending => ⟨output, pending⟩

/-- Moves to the output all that stands above the innermost open parenthesis, which becomes the top
of the stack; nothing if there is none. -/
def unwind? (output : List Node) : List Pending → Option Reading
  | [] => none
  | .parenthesis :: rest => some ⟨output, .parenthesis :: rest⟩
  | .operator op :: rest => unwind? (.operator op :: output) rest
  | .function f :: rest => unwind? (.function f :: output) rest

/-- Removes an open parenthesis from the top of the stack, and moves the function that stands
before it to the output. -/
def close (r : Reading) : Reading :=
  match r.pending.tail with
  | .function f :: rest => ⟨.function f :: r.output, rest⟩
  | rest => { r with pending := rest }

/-- Reads one token. -/
def step (r : Reading) (token : Token) : Except FormulaError Reading :=
  let malformed := FormulaError.malformed token.offset token.text
  match token.kind with
  | .number =>
    match Number.read? token.text.toList with
    | some value => .ok (r.push (.constant value))
    | none => .error malformed
  | .cell =>
    match CellRef.parse? token.text with
    | some ref => .ok (r.push (.cell ref))
    | none => .error malformed
  | .operator =>
    match token.text.toList.head?.bind Operator.ofSymbol? with
    | some op =>
      let r := yieldTo op r.output r.pending
      .ok { r with pending := .operator op :: r.pending }
    | none => .error malformed
  | .word =>
    match Function.ofName? token.text with
    | some f => .ok { r with pending := .function f :: r.pending }
    | none => .error (.unknownFunction token.text)
  | .leftParenthesis => .ok { r with pending := .parenthesis :: r.pending }
  | .rightParenthesis =>
    match unwind? r.output r.pending with
    | some r => .ok r.close
    | none => .error .missingStartParenthesis
  | .comma =>
    match unwind? r.output r.pending with
    | some r => .ok r
    | none => .error .misplacedSeparator
  | .malformed => .error malformed

/-- Moves the rest of the stack to the output, where no open parenthesis may be left. -/
def finish (output : List Node) : List Pending → Except FormulaError (List Node)
  | [] => .ok output.reverse
  | .operator op :: rest => finish (.operator op :: output) rest
  | .function f :: rest => finish (.function f :: output) rest
  | .parenthesis :: _ => .error .unmatchedParenthesis

end Reading

/-- The number of values that a sequence of nodes leaves above `depth` others, or the first node
that lacks operands. -/
def countValues (depth : Nat) : List Node → Except ArityFault Nat
  | [] => .ok depth
  | node :: rest =>
    if depth < node.operandCount then .error (.missingOperands node)
    else countValues (depth - node.operandCount + 1) rest

/-- Every node finds its operands and one value remains. -/
def checkArity (nodes : List Node) : Except ArityFault Unit := do
  match ← countValues 0 nodes with
  | 0 => .error .empty
  | 1 => .ok ()
  | count => .error (.leftover count)

/-- The postfix order of a row of tokens. -/
def ofTokens (tokens : List Token) : Except FormulaError (List Node) := do
  let r ← tokens.foldlM Reading.step {}
  let nodes ← Reading.finish r.output r.pending
  match checkArity nodes with
  | .ok () => .ok nodes
  | .error fault => .error (.arity fault)

/-- A formula without the equals sign in front of it. -/
def stripEquals : List Char → List Char
  | '=' :: cs => cs
  | cs => cs

/-- The postfix order of a formula, whose text may start with one equals sign. -/
def parse (text : String) : Except FormulaError (List Node) :=
  ofTokens (scan (stripEquals (Text.trim text.toList)))

end SheetScript.Formula
