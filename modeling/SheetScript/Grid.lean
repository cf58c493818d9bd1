import SheetScript.Cell
import Std.Data.ExtTreeMap
import Std.Data.ExtTreeSet

/-!
# Grids

A grid stores the cells that hold something. The formulas in it make a graph, with an edge from
each stored cell to every cell that its formula reads, stored or not.

`findCycle grid start` walks that graph depth first and returns the first path that runs into
itself. A cell that is completely searched is never searched again, so the walk takes every edge at
most once. It ends because a cell leaves the `unopened` part of the grid when the walk enters it.
-/

namespace SheetScript

/-- The stored cells. -/
abbrev Grid := Std.ExtTreeMap CellRef Cell

namespace Grid

/-- Whether a cell holds anything. -/
def hasValue (grid : Grid) (ref : CellRef) : Bool :=
  match grid[ref]? with
  | some cell => !cell.content.isEmpty
  | none => false

/-- The cells that the formula at `ref` reads. -/
def precedents (grid : Grid) (ref : CellRef) : List CellRef :=
  match grid[ref]? with
  | some cell => cell.precedents
  | none => []

/-- The grid with a cell stored or removed. -/
def put (grid : Grid) (ref : CellRef) : Option Cell → Grid
  | some cell => grid.insert ref cell
  | none => grid.erase ref

@[simp] theorem getElem?_put (grid : Grid) (ref other : CellRef) (cell : Option Cell) :
    (grid.put ref cell)[other]? = if other = ref then cell else grid[other]? := by
  cases cell <;>
    simp [put, Std.ExtTreeMap.getElem?_insert, Std.ExtTreeMap.getElem?_erase, eq_comm (a := ref)]

theorem precedents_eq (grid : Grid) (ref : CellRef) :
    grid.precedents ref = (grid[ref]?.map Cell.precedents).getD [] := by
  unfold precedents
  cases grid[ref]? <;> rfl

/-- A map from cells is smaller without one of its keys. -/
theorem size_erase_lt {α : Type} {cells : Std.ExtTreeMap CellRef α} {ref : CellRef}
    (h : ref ∈ cells) : (cells.erase ref).size < cells.size := by
  have hpos : cells.size ≠ 0 := fun h0 => by
    cases Std.ExtTreeMap.eq_empty_iff_size_eq_zero.2 h0
    exact Std.ExtTreeMap.not_mem_empty h
  rw [Std.ExtTreeMap.size_erase, if_pos (Std.ExtTreeMap.mem_iff_contains.1 h)]
  omega

mutual

/-- Searches from one cell, at the end of `path` (its last cell first). The cells of the path are
those of the grid that are no longer `unopened`. Returns the cells that lead into no cycle, or the
path that closes one. -/
def searchCell (grid unopened : Grid) (path : List CellRef) (cleared : Std.ExtTreeSet CellRef)
    (ref : CellRef) : Except (List CellRef) (Std.ExtTreeSet CellRef) :=
  if ref ∈ cleared then .ok cleared
  else if h : ref ∈ unopened then
    match searchAll grid (unopened.erase ref) (ref :: path) cleared unopened[ref].precedents with
    | .ok cleared => .ok (cleared.insert ref)
    | .error cycle => .error cycle
  else if ref ∈ grid then .error (ref :: path).reverse
  else .ok cleared
termination_by (unopened.size, 0)
decreasing_by exact Prod.Lex.left _ _ (size_erase_lt h)

/-- Searches from each of the cells that the end of `path` reads. -/
def searchAll (grid unopened : Grid) (path : List CellRef) (cleared : Std.ExtTreeSet CellRef)
    (refs : List CellRef) : Except (List CellRef) (Std.ExtTreeSet CellRef) :=
  match refs with
  | [] => .ok cleared
  | ref :: rest =>
    match searchCell grid unopened path cleared ref with
    | .ok cleared => searchAll grid unopened path cleared rest
    | .error cycle => .error cycle
termination_by (unopened.size, refs.length + 1)

end

/-- A path from `start` that ends at a cell it already passed, if there is one. -/
def findCycle (grid : Grid) (start : CellRef) : Option (List CellRef) :=
  match searchCell grid grid [] ∅ start with
  | .ok _ => none
  | .error cycle => some cycle

end Grid

end SheetScript
