/-!
# Operators of expressions

The operators of arithmetic expressions, from the tightest to the loosest: the sign, products,
sums, order, equality, conjunction, disjunction. Truth is a number: zero is false, a true
comparison is one.
-/

namespace SheetScript.Arithmetic

/-- An operator. All but `negate` take two operands and group to the left. -/
inductive Operator where
  | negate
  | multiply
  | divide
  | add
  | subtract
  | less
  | greater
  | lessEqual
  | greaterEqual
  | equal
  | notEqual
  | and
  | or
deriving DecidableEq, Repr

/-- The operator with the higher number binds tighter. -/
def Operator.precedence : Operator → Nat
  | negate => 11
  | multiply | divide => 10
  | add | subtract => 9
  | less | greater | lessEqual | greaterEqual => 7
  | equal | notEqual => 6
  | and => 2
  | or => 1

/-- A number counts as true unless it is zero. -/
def truth (x : Float) : Bool := x != 0

/-- The number of a truth value. -/
def flag (b : Bool) : Float := if b then 1 else 0

/-- Two numbers are equal when they differ by less than this. -/
def tolerance : Float := 1e-7

/-- What an operator with two operands computes; the sign has only one. -/
def Operator.compute? : Operator → Option (Float → Float → Float)
  | negate => none
  | multiply => some fun a b => a * b
  | divide => some fun a b => a / b
  | add => some fun a b => a + b
  | subtract => some fun a b => a - b
  | less => some fun a b => flag (a < b)
  | greater => some fun a b => flag (b < a)
  | lessEqual => some fun a b => flag (a ≤ b)
  | greaterEqual => some fun a b => flag (b ≤ a)
  | equal => some fun a b => flag ((a - b).abs < tolerance)
  | notEqual => some fun a b => flag (tolerance ≤ (a - b).abs)
  | and => some fun a b => flag (truth a && truth b)
  | or => some fun a b => flag (truth a || truth b)

end SheetScript.Arithmetic
