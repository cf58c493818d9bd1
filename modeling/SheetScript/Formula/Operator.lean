/-!
# Operators and functions of formulas

The tables of the formula language: five binary operators, all grouping to the left, and five
functions. Three functions sum up a range of cells, two choose between a pair of values.
-/

namespace SheetScript.Formula

/-! ## Operators -/

/-- A binary operator. The range operator joins two corners and has no numeric value. -/
inductive Operator where
  | range
  | multiply
  | divide
  | add
  | subtract
deriving DecidableEq, Repr

namespace Operator

/-- Every operator. -/
def all : List Operator := [range, multiply, divide, add, subtract]

/-- The character that writes the operator. -/
def symbol : Operator → Char
  | range => ':'
  | multiply => '*'
  | divide => '/'
  | add => '+'
  | subtract => '-'

/-- The operator with the higher number binds tighter. -/
def precedence : Operator → Nat
  | range => 5
  | multiply => 4
  | divide => 3
  | add => 1
  | subtract => 1

/-- The operator that a character writes. -/
def ofSymbol? (c : Char) : Option Operator := all.find? fun op => op.symbol == c

/-- What the operator computes; a range computes nothing. Division by zero gives an infinity or
NaN. -/
def compute? : Operator → Option (Float → Float → Float)
  | range => none
  | multiply => some (· * ·)
  | divide => some (· / ·)
  | add => some (· + ·)
  | subtract => some (· - ·)

theorem ofSymbol?_symbol (op : Operator) : ofSymbol? op.symbol = some op := by
  cases op <;> decide

end Operator

/-! ## Functions -/

/-- A function that sums up the cells of a range. -/
inductive Aggregate where
  | sum
  | average
  | count
deriving DecidableEq, Repr

/-- The value of an aggregate over cells with the given sum and number. -/
def Aggregate.ofTotals (sum : Float) (count : Nat) : Aggregate → Float
  | .sum => sum
  | .average => sum / count.toFloat
  | .count => count.toFloat

/-- A function that chooses one of two values. -/
inductive Extremum where
  | minimum
  | maximum
deriving DecidableEq, Repr

/-- The chosen value. NaN gives way to a number, and of two equal values, such as the two zeros,
the second one is chosen. -/
def Extremum.choose (a b : Float) : Extremum → Float
  | .minimum => if a < b || b.isNaN then a else b
  | .maximum => if b < a || b.isNaN then a else b

/-- A function of the formula language. -/
inductive Function where
  | aggregate (kind : Aggregate)
  | extremum (kind : Extremum)
deriving DecidableEq, Repr

/-- The shape of the arguments of a function. -/
inductive Arity where
  /-- One argument, a range. -/
  | range
  /-- Two arguments, both values. -/
  | binary
deriving DecidableEq, Repr

namespace Function

/-- Every function. -/
def all : List Function :=
  [aggregate .sum, aggregate .average, aggregate .count, extremum .minimum, extremum .maximum]

/-- The name of the function, in capital letters. -/
def name : Function → String
  | aggregate .sum => "SUM"
  | aggregate .average => "AVG"
  | aggregate .count => "COUNT"
  | extremum .minimum => "MIN"
  | extremum .maximum => "MAX"

/-- The shape of the arguments. -/
def arity : Function → Arity
  | aggregate _ => .range
  | extremum _ => .binary

/-- The function with the given name, in letters of either case. -/
def ofName? (text : String) : Option Function :=
  all.find? fun f => f.name.toList == text.toList.map Char.toUpper

theorem ofName?_name (f : Function) : ofName? f.name = some f := by
  rcases f with k | k <;> cases k <;> decide

end Function

end SheetScript.Formula
