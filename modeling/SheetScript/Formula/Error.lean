import SheetScript.Formula.Node
import SheetScript.Text.Quoted

/-!
# Errors of formulas

What can go wrong when a formula is read, written or evaluated, as causes; `FormulaError.message`
holds the wording.
-/

namespace SheetScript.Formula

/-- A sequence of nodes that is not one formula. -/
inductive ArityFault where
  /-- A node comes before enough operands. -/
  | missingOperands (node : Node)
  /-- There is no value at all. -/
  | empty
  /-- More than one value is left. -/
  | leftover (count : Nat)

/-- The wording of an arity fault. -/
def ArityFault.message : ArityFault → String
  | missingOperands node => s!"'{node}' is missing operands"
  | empty => "empty formula"
  | leftover count => s!"{count} values without an operator between them"

/-- A formula that has no value, whatever the cells hold. -/
inductive ValueFault where
  /-- A range stands where a value is needed. -/
  | rangeAsValue
  /-- A function stands where a value is needed. -/
  | notAValue (node : Node)
  /-- An operand is missing. -/
  | underflow
  /-- A corner of a range is not a cell. -/
  | cornerNotACell (node : Node)
  /-- The argument of an aggregate is not a range. -/
  | notARange (node : Node)
  /-- A range has more cells than an aggregate may visit. -/
  | rangeTooLarge (first last : CellRef)
  /-- A number passes sixty-four bits, and the program stops. -/
  | overflow

/-- The wording of a value fault. -/
def ValueFault.message : ValueFault → String
  | rangeAsValue => "range used outside a function"
  | notAValue node => s!"'{node}' is not a value"
  | underflow => "operand stack underflow"
  | cornerNotACell node => s!"range bound '{node}' is not a cell"
  | notARange node => s!"expected a range argument, found '{node}'"
  | rangeTooLarge first last => s!"range {first}:{last} is too large"
  | overflow => "attempt to add with overflow"

/-- The cells that the wording names. -/
def ValueFault.cells : ValueFault → List CellRef
  | notAValue (.cell ref) | cornerNotACell (.cell ref) | notARange (.cell ref) => [ref]
  | rangeTooLarge first last => [first, last]
  | _ => []

end SheetScript.Formula

namespace SheetScript

open Formula

/-- What can go wrong with a formula. -/
inductive FormulaError where
  /-- A token that is no part of the language, with its place in bytes. -/
  | malformed (offset : Nat) (text : String)
  | arity (fault : ArityFault)
  | unknownFunction (name : String)
  | missingStartParenthesis
  | misplacedSeparator
  | unmatchedParenthesis
  | value (fault : ValueFault)
  /-- The first corner of a range lies beyond the last. -/
  | reversedRange (first last : CellRef)
  /-- Evaluation does not end with exactly one value. -/
  | stackDepth (count : Nat)
  /-- Formulas read one another through more levels than allowed. -/
  | recursionLimit (limit : Nat)

/-- The error of a fault. Its wording is made at once, and the program may stop over the number of a
row in it. -/
def Formula.ValueFault.toError (overflow : Overflow) (fault : ValueFault) : FormulaError :=
  if fault.cells.all fun ref => (overflow.succ? ref.row).isSome then .value fault
  else .value .overflow

/-- The wording of a formula error. -/
def FormulaError.message : FormulaError → String
  | malformed offset text => s!"Malformed token at offset {offset}: {Text.quote text}"
  | arity fault => s!"Parse error: {fault.message}"
  | unknownFunction name => s!"Unknown function: {name}"
  | missingStartParenthesis => "Missing start parenthesis"
  | misplacedSeparator => "Misplaced parenthesis or comma"
  | unmatchedParenthesis => "Unmatched parenthesis"
  | value fault => s!"Evaluation error: {fault.message}"
  | reversedRange first last => s!"Reversed range {first}:{last}"
  | stackDepth count => s!"Formula left {count} values on the stack"
  | recursionLimit limit => s!"Formula nesting exceeds {limit} levels"

end SheetScript
