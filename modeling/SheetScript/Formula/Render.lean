import SheetScript.Formula.Error

/-!
# What a postfix sequence says

`render` writes a postfix sequence as a formula that reads back as the same sequence. Operations
stand in parentheses with blanks around the operator. Ranges stand bare and group to the left, so
only a range on the right of a range needs parentheses.

The precedents of a formula are the cells it names, in order. A range of two cells stands for its
whole rectangle, whichever way round its corners are, unless that has too many cells to list; then
its corners stand for it, and no evaluation visits more. Here the count of the cells wraps around. A
program that stops at overflows has no precedents for a range that it cannot count.
-/

namespace SheetScript.Formula

/-! ## From postfix order to infix text -/

/-- The text of a part of a formula. -/
structure Fragment where
  text : String
  /-- Whether the text is a range without parentheses around it. -/
  isRange : Bool

namespace Fragment

/-- Two fragments joined by an operator. -/
def join (lhs : Fragment) (op : Operator) (rhs : Fragment) : Fragment :=
  match op with
  | .range =>
    ⟨if rhs.isRange then s!"{lhs.text}:({rhs.text})" else s!"{lhs.text}:{rhs.text}", true⟩
  | op => ⟨s!"({lhs.text} {op.symbol} {rhs.text})", false⟩

end Fragment

/-- Puts a node onto the stack of fragments, in place of its operands. -/
def renderStep (stack : List Fragment) (node : Node) : Except FormulaError (List Fragment) :=
  match node, stack with
  | .constant _, stack | .cell _, stack => .ok (⟨node.text, false⟩ :: stack)
  | .operator op, rhs :: lhs :: stack => .ok (lhs.join op rhs :: stack)
  | .function (.aggregate kind), argument :: stack =>
    .ok (⟨s!"{(Function.aggregate kind).name}({argument.text})", false⟩ :: stack)
  | .function (.extremum kind), rhs :: lhs :: stack =>
    .ok (⟨s!"{(Function.extremum kind).name}({lhs.text}, {rhs.text})", false⟩ :: stack)
  | node, _ => .error (.arity (.missingOperands node))

/-- The infix text of a postfix sequence. -/
def render (nodes : List Node) : Except FormulaError String := do
  match ← nodes.foldlM renderStep [] with
  | [fragment] => .ok fragment.text
  | stack => .error (.stackDepth stack.length)

/-! ## The cells a formula reads -/

/-- The most cells that a range contributes. -/
def maxListedCells : Nat := 1000000

/-- The cells of the range between two corners, or just the corners of a range too large. -/
def rangePrecedents (a b : CellRef) : List CellRef :=
  let first := CellRef.lowerCorner a b
  let last := CellRef.upperCorner a b
  if (CellRef.cellCount .wraps first last).any (· ≤ maxListedCells) then
    CellRef.rectangle first last
  else [a, b]

/-- The cells that a postfix sequence reads, in order and with repetitions. -/
def precedents : List Node → List CellRef
  | .cell a :: .cell b :: .operator .range :: rest => rangePrecedents a b ++ precedents rest
  | .cell a :: rest => a :: precedents rest
  | _ :: rest => precedents rest
  | [] => []

end SheetScript.Formula
