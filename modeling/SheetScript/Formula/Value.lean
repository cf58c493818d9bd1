import SheetScript.Formula.Error

/-!
# The value of a formula

`evaluate` runs a postfix sequence on a stack that holds nodes, not numbers: a cell is looked up
only when its value is needed, and a range stays on the stack with its two corners until an
aggregate takes all three.

Cells are read through a `CellSource`. Reading may update a state of the source, such as a store of
values already computed; `evaluateWith` is evaluation over a source without state.

The cells of a range are counted in sixty-four bits. What happens beyond them is a parameter of
evaluation. A range with as many columns or rows as there are numbers of sixty-four bits stops the
program, or has no cells by a count that wraps around.
-/

namespace SheetScript.Formula

/-- Computations that read cells: they may fail, and may update the state of the source. -/
abbrev Lookup (σ : Type) (α : Type) := ExceptT FormulaError (StateM σ) α

/-- Read access to cells. Cells that hold no number have a value too: zero. -/
structure CellSource (σ : Type) where
  /-- The value of a cell. A cell whose own formula fails, fails. -/
  value : CellRef → Lookup σ Float
  /-- Whether a cell holds anything at all; aggregates pass over the others. -/
  hasValue : CellRef → Bool

/-- The most cells that an aggregate visits. -/
def maxRangeCells : Nat := 1000000

variable {σ : Type} (overflow : Overflow)

/-- The value of a node by itself. -/
def scalar (source : CellSource σ) : Node → Lookup σ Float
  | .constant value => pure value
  | .cell ref => source.value ref
  | .operator .range => throw (.value .rangeAsValue)
  | node => throw (.value (.notAValue node))

/-- Takes the top of the stack. -/
def pop : List Node → Lookup σ (Node × List Node)
  | [] => throw (.value .underflow)
  | node :: stack => pure (node, stack)

/-- Takes a value from the stack. -/
def popScalar (source : CellSource σ) (stack : List Node) : Lookup σ (Float × List Node) := do
  let (node, stack) ← pop stack
  return (← scalar source node, stack)

/-- Takes two values from the stack; the right one lies on top. -/
def popPair (source : CellSource σ) (stack : List Node) :
    Lookup σ ((Float × Float) × List Node) := do
  let (rhs, stack) ← popScalar source stack
  let (lhs, stack) ← popScalar source stack
  return ((lhs, rhs), stack)

/-- Takes a corner of a range from the stack. -/
def popCorner (stack : List Node) : Lookup σ (CellRef × List Node) := do
  match ← pop stack with
  | (.cell ref, stack) => return (ref, stack)
  | (node, _) => throw (.value (.cornerNotACell node))

/-- The corners of a range may be visited: they are in order, with not too many cells between. -/
def checkRange (first last : CellRef) : Except FormulaError Unit :=
  if last.col < first.col ∨ last.row < first.row then .error (.reversedRange first last)
  else
    match CellRef.cellCount overflow first last with
    | none => .error (.value .overflow)
    | some count =>
      if count ≤ maxRangeCells then .ok ()
      else .error ((ValueFault.rangeTooLarge first last).toError overflow)

-- All columns of the sheet, in either build.
example : checkRange .stops ⟨0, 0⟩ ⟨UInt64.size - 1, 0⟩ = .error (.value .overflow) := rfl

example : checkRange .wraps ⟨0, 0⟩ ⟨UInt64.size - 1, 0⟩ = .ok () := rfl

/-- Takes a range from the stack: the range operator, then the last and the first corner. -/
def popRange (stack : List Node) : Lookup σ ((CellRef × CellRef) × List Node) := do
  match ← pop stack with
  | (.operator .range, stack) =>
    let (last, stack) ← popCorner stack
    let (first, stack) ← popCorner stack
    match checkRange overflow first last with
    | .ok () => return ((first, last), stack)
    | .error e => throw e
  | (node, _) => throw ((ValueFault.notARange node).toError overflow)

/-- Adds a cell to the sum and the number of the cells that hold something. -/
def addCell (source : CellSource σ) (totals : Float × Nat) (ref : CellRef) :
    Lookup σ (Float × Nat) := do
  if source.hasValue ref then return (totals.1 + (← source.value ref), totals.2 + 1)
  else return totals

/-- The sum and the number of the cells of a rectangle that hold something, row by row. -/
def totals (source : CellSource σ) (first last : CellRef) : Lookup σ (Float × Nat) :=
  (CellRef.rectangle first last).foldlM (addCell source) (0, 0)

/-- Runs one node. -/
def evaluateStep (source : CellSource σ) (stack : List Node) : Node → Lookup σ (List Node)
  | .constant value => return .constant value :: stack
  | .cell ref => return .cell ref :: stack
  | .operator op =>
    match op.compute? with
    | none => return .operator op :: stack
    | some compute => do
      let ((lhs, rhs), stack) ← popPair source stack
      return .constant (compute lhs rhs) :: stack
  | .function (.aggregate kind) => do
    let ((first, last), stack) ← popRange overflow stack
    let (sum, count) ← totals source first last
    return .constant (kind.ofTotals sum count) :: stack
  | .function (.extremum kind) => do
    let ((lhs, rhs), stack) ← popPair source stack
    return .constant (kind.choose lhs rhs) :: stack

/-- The value of a postfix sequence, which must leave exactly one node on the stack. -/
def evaluate (source : CellSource σ) (nodes : List Node) : Lookup σ Float := do
  match ← nodes.foldlM (evaluateStep overflow source) [] with
  | [node] => scalar source node
  | stack => throw (.stackDepth stack.length)

/-- A source that only looks up values. -/
def CellSource.ofValues (value : CellRef → Except FormulaError Float) (hasValue : CellRef → Bool) :
    CellSource Unit where
  value ref := liftExcept (value ref)
  hasValue := hasValue
where
  /-- A result that leaves the state as it is. -/
  liftExcept (r : Except FormulaError Float) : Lookup Unit Float := fun s => (r, s)

/-- The value of a postfix sequence over cells with the given values. Numbers wrap around unless
the program is built to stop. -/
def evaluateWith (value : CellRef → Except FormulaError Float) (hasValue : CellRef → Bool)
    (nodes : List Node) (overflow : Overflow := .wraps) : Except FormulaError Float :=
  (evaluate overflow (.ofValues value hasValue) nodes ()).1

end SheetScript.Formula
