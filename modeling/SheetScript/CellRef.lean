import SheetScript.Number.Positional

/-!
# Cell references

A cell is named by the letters of its column and the number of its row: `B3`. Inside, both are
indices that start at zero.

* `CellRef.parse?` reads a name, with letters of either case.
* `CellRef.name` writes it, with capital letters. Columns count `A` to `Z`, then `AA`, `AB` and so
  on: the letters are the digits `1` to `26` of a number system without a zero.
* `CellRef.offset` moves by a number of columns and rows and stops at the edges of the sheet.
* `CellRef.rectangle` lists the cells between two corners, row by row.

Indices and the numbers made from them have sixty-four bits. One more than the last index does not
fit: what becomes of it depends on how the program is built (`Overflow`). Names are those of a build
in which the number wraps around.
-/

namespace SheetScript

/-! ## Numbers of sixty-four bits -/

/-- What happens where a number passes sixty-four bits. -/
inductive Overflow where
  /-- The program stops. -/
  | stops
  /-- The number wraps around. -/
  | wraps
deriving DecidableEq, Repr

/-- One more than a number, wrapped around. -/
def wrappingSucc (n : Nat) : Nat := (n + 1) % UInt64.size

/-- One more than a number, unless the program stops. -/
def Overflow.succ? (overflow : Overflow) (n : Nat) : Option Nat :=
  match overflow with
  | stops => if n + 1 < UInt64.size then some (n + 1) else none
  | wraps => some (wrappingSucc n)

theorem Overflow.succ?_of_lt {n : Nat} (h : n + 1 < UInt64.size) (overflow : Overflow) :
    overflow.succ? n = some (n + 1) := by
  cases overflow with
  | stops => exact if_pos h
  | wraps => exact congrArg some (Nat.mod_eq_of_lt h)

/-- A number that a program with stops counts to is the one that any other counts to. -/
theorem Overflow.succ?_wraps {overflow : Overflow} {n m : Nat} (h : overflow.succ? n = some m) :
    wraps.succ? n = some m := by
  cases overflow with
  | stops =>
    by_cases hlt : n + 1 < UInt64.size
    · rw [← h, succ?_of_lt hlt, succ?_of_lt hlt]
    · rw [succ?, if_neg hlt] at h
      cases h
  | wraps => exact h

/-! ## Cells -/

/-- A cell by the indices of its column and its row. They are numbers of sixty-four bits, although
nothing here keeps them from being larger; what is said of all cells is more than is needed. -/
structure CellRef where
  /-- The column, counted from zero. -/
  col : Nat
  /-- The row, counted from zero. -/
  row : Nat
deriving DecidableEq, Repr, Inhabited

namespace CellRef

/-- The last index of a column or row. -/
def maxIndex : Nat := UInt64.size - 1

/-! ## Names -/

/-- The value of a column letter of either case, `A` being one. -/
def letterValue (c : Char) : Nat := c.toUpper.toNat - 'A'.toNat + 1

/-- The letters of a column number, put in front of `tail`. Zero has no letters. -/
def lettersOf (number : Nat) (tail : List Char) : List Char :=
  if number = 0 then tail
  else lettersOf ((number - 1) / 26) (Char.ofNat ('A'.toNat + (number - 1) % 26) :: tail)
termination_by number
decreasing_by omega

/-- The letters of the column with the given index. -/
def columnLetters (col : Nat) : List Char := lettersOf (col + 1) []

/-- The index of the column or row with a number, which counts from one. -/
def indexOf? (number : Nat) : Option Nat := if number = 0 then none else some (number - 1)

/-- The cell with the given column letters and row digits. Both numbers count from one and are read
within sixty-four bits. -/
def ofParts? (letters digits : List Char) : Option CellRef := do
  let col ← indexOf? (← Number.valueWithin? maxIndex 26 letterValue letters)
  let row ← indexOf? (← Number.valueWithin? maxIndex 10 Number.digitValue digits)
  return ⟨col, row⟩

/-- The cell that a name stands for: letters, then digits, and nothing else. -/
def ofChars? (cs : List Char) : Option CellRef :=
  let letters := cs.takeWhile Char.isAlpha
  let digits := cs.dropWhile Char.isAlpha
  if letters.isEmpty || digits.isEmpty || !digits.all Char.isDigit then none
  else ofParts? letters digits

/-- The cell that a name stands for. -/
def parse? (text : String) : Option CellRef := ofChars? text.toList

/-- The name of a cell. The number of its row wraps around. -/
def toChars (cell : CellRef) : List Char :=
  columnLetters cell.col ++ Nat.toDigits 10 (wrappingSucc cell.row)

/-- The name of a cell. -/
def name (cell : CellRef) : String := String.ofList cell.toChars

instance : ToString CellRef := ⟨name⟩

/-! ## Order -/

/-- By column, then by row. -/
protected def compare (a b : CellRef) : Ordering :=
  (Ord.compare a.col b.col).then (Ord.compare a.row b.row)

instance : Ord CellRef := ⟨CellRef.compare⟩

theorem compare_def (a b : CellRef) :
    Ord.compare a b = (Ord.compare a.col b.col).then (Ord.compare a.row b.row) := rfl

instance : Std.LawfulEqOrd CellRef where
  compare_self := by simp [compare_def, Std.ReflOrd.compare_self]
  eq_of_compare {a b} h := by
    obtain ⟨h₁, h₂⟩ := Ordering.then_eq_eq.1 (compare_def a b ▸ h)
    cases a; cases b
    exact congr (congrArg _ (Std.LawfulEqOrd.eq_of_compare h₁)) (Std.LawfulEqOrd.eq_of_compare h₂)

instance : Std.TransOrd CellRef :=
  inferInstanceAs (Std.TransCmp (compareLex (compareOn CellRef.col) (compareOn CellRef.row)))

/-! ## Moving and rectangles -/

/-- An index moved by `d`, but not beyond either end. -/
def shift (index : Nat) (d : Int) : Nat := min maxIndex (index + d).toNat

/-- The cell some columns to the right and some rows down, stopping at the edges. -/
def offset (cell : CellRef) (dcol drow : Int) : CellRef :=
  ⟨shift cell.col dcol, shift cell.row drow⟩

/-- How many indices there are from the first to the last one. -/
def span (overflow : Overflow) (first last : Nat) : Option Nat := overflow.succ? (last - first)

/-- How many cells the rectangle between two corners has, which must be the right way round. -/
def cellCount (overflow : Overflow) (first last : CellRef) : Option Nat := do
  return (← span overflow first.col last.col) * (← span overflow first.row last.row)

/-- A rectangle that a program with stops counts has as many cells for any other. -/
theorem cellCount_wraps {overflow : Overflow} {first last : CellRef} {count : Nat}
    (h : cellCount overflow first last = some count) :
    cellCount .wraps first last = some count := by
  simp only [cellCount, Option.bind_eq_bind, Option.bind_eq_some_iff, Option.pure_def] at h ⊢
  obtain ⟨cols, hcols, rows, hrows, hcount⟩ := h
  exact ⟨cols, Overflow.succ?_wraps hcols, rows, Overflow.succ?_wraps hrows, hcount⟩

/-- The cells of a rectangle by its first and its last corner, row by row. -/
def rectangle (first last : CellRef) : List CellRef :=
  (List.range' first.row (last.row + 1 - first.row)).flatMap fun row =>
    (List.range' first.col (last.col + 1 - first.col)).map fun col => ⟨col, row⟩

/-- The corner with the smaller column and the smaller row of two cells. -/
def lowerCorner (a b : CellRef) : CellRef := ⟨min a.col b.col, min a.row b.row⟩

/-- The corner with the larger column and the larger row of two cells. -/
def upperCorner (a b : CellRef) : CellRef := ⟨max a.col b.col, max a.row b.row⟩

theorem mem_rectangle {first last cell : CellRef} :
    cell ∈ rectangle first last ↔
      (first.col ≤ cell.col ∧ cell.col ≤ last.col) ∧
        first.row ≤ cell.row ∧ cell.row ≤ last.row := by
  simp only [rectangle, List.mem_flatMap, List.mem_map, List.mem_range'_1]
  constructor
  · rintro ⟨row, hr, col, hc, rfl⟩
    dsimp only
    omega
  · rintro ⟨hc, hr⟩
    exact ⟨cell.row, by omega, cell.col, by omega, rfl⟩

/-- An index stays within the sheet. -/
theorem shift_le (index : Nat) (d : Int) : shift index d ≤ maxIndex := Nat.min_le_left _ _

end CellRef

end SheetScript
