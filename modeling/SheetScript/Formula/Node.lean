import SheetScript.CellRef
import SheetScript.Formula.Operator
import SheetScript.Number.Format

/-!
# Postfix nodes

A parsed formula is a list of nodes in postfix order: every operator and every function follows its
operands. How many operands a node takes is all that decides whether a list is well formed: the
list must never run out of operands and must leave exactly one value.
-/

namespace SheetScript.Formula

/-- One node of a formula in postfix order. -/
inductive Node where
  | constant (value : Float)
  | cell (ref : CellRef)
  | operator (op : Operator)
  | function (f : Function)

namespace Node

/-- The text of a node by itself. -/
def text : Node → String
  | constant value => Number.format .plain value
  | cell ref => ref.name
  | operator op => String.singleton op.symbol
  | function f => f.name

instance : ToString Node := ⟨text⟩

/-- How many operands a node takes from the values before it. -/
def operandCount : Node → Nat
  | constant _ | cell _ => 0
  | operator _ => 2
  | function f =>
    match f.arity with
    | .range => 1
    | .binary => 2

/-- The same node, where constants count as the same if they are equal as numbers. -/
def sameAs : Node → Node → Bool
  | constant a, constant b => a == b
  | cell a, cell b => a == b
  | operator a, operator b => a == b
  | function a, function b => a == b
  | _, _ => false

end Node

/-- The same formula: as many nodes, each the same as its counterpart. -/
def sameNodes : List Node → List Node → Bool
  | [], [] => true
  | a :: as, b :: bs => a.sameAs b && sameNodes as bs
  | _, _ => false

end SheetScript.Formula
