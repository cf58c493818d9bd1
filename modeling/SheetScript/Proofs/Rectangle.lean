import Mathlib.Data.List.Sort
import SheetScript.Proofs.CellRef

/-!
# Rectangles of cells

The list of a rectangle holds its cells row by row, each one once, and is the only such list
(`rowByRow_iff`). Its length is the number of cells (`length_rectangle`), and the count in
sixty-four bits comes to the same wherever it can be made (`cellCount_of_countable`).
-/

namespace SheetScript.CellRef

variable {first last : CellRef} {cells : List CellRef}

/-- The cell `a` lies in a row above `b`, or to the left of it in the same row. -/
def Before (a b : CellRef) : Prop := a.row < b.row ∨ a.row = b.row ∧ a.col < b.col

instance : Std.Antisymm Before where
  antisymm a b hab hba := by
    unfold Before at hab hba
    omega

instance : Std.Irrefl Before where
  irrefl a h := by
    unfold Before at h
    omega

/-- The list holds the cells between two corners, each one once, row by row. -/
structure RowByRow (first last : CellRef) (cells : List CellRef) : Prop where
  mem_iff : ∀ cell, cell ∈ cells ↔
    (first.col ≤ cell.col ∧ cell.col ≤ last.col) ∧ first.row ≤ cell.row ∧ cell.row ≤ last.row
  pairwise : cells.Pairwise Before

theorem pairwise_rectangle (first last : CellRef) : (rectangle first last).Pairwise Before := by
  unfold rectangle
  rw [List.pairwise_flatMap]
  constructor
  · intro row _
    rw [List.pairwise_map]
    exact (List.pairwise_lt_range' 1).imp fun hcol => Or.inr ⟨rfl, hcol⟩
  · refine (List.pairwise_lt_range' 1).imp fun hrow a ha b hb => ?_
    obtain ⟨col, -, rfl⟩ := List.mem_map.1 ha
    obtain ⟨col', -, rfl⟩ := List.mem_map.1 hb
    exact Or.inl hrow

/-- The list of a rectangle is the one that goes through it row by row. -/
theorem rowByRow_iff : RowByRow first last cells ↔ cells = rectangle first last := by
  constructor
  · intro h
    refine h.pairwise.eq_of_mem_iff (pairwise_rectangle first last) fun cell => ?_
    rw [h.mem_iff, mem_rectangle]
  · rintro rfl
    exact ⟨fun cell => mem_rectangle, pairwise_rectangle first last⟩

theorem length_rectangle (first last : CellRef) :
    (rectangle first last).length =
      (last.col + 1 - first.col) * (last.row + 1 - first.row) := by
  simp only [rectangle, List.length_flatMap, List.length_map, List.length_range',
    List.map_const', List.sum_replicate_nat]
  exact Nat.mul_comm _ _

/-! ## Counting in sixty-four bits -/

/-- The columns and the rows between two corners can be counted in sixty-four bits. -/
def Countable (first last : CellRef) : Prop :=
  last.col - first.col + 1 < UInt64.size ∧ last.row - first.row + 1 < UInt64.size

/-- A count of sixty-four bits that wraps around comes back to zero. -/
theorem cellCount_of_not_countable (hcol : last.col ≤ maxIndex) (hrow : last.row ≤ maxIndex)
    (h : ¬ Countable first last) : cellCount .wraps first last = some 0 := by
  have hzero d (hd : d ≤ maxIndex) (hlong : ¬ d + 1 < UInt64.size) : wrappingSucc d = 0 := by
    have hd : d + 1 = UInt64.size := Nat.le_antisymm (Nat.succ_le_succ hd) (not_lt.1 hlong)
    rw [wrappingSucc, hd, Nat.mod_self]
  refine congrArg some (Nat.mul_eq_zero.2 ?_)
  rcases not_and_or.1 h with hcols | hrows
  · exact Or.inl (hzero _ ((Nat.sub_le _ _).trans hcol) hcols)
  · exact Or.inr (hzero _ ((Nat.sub_le _ _).trans hrow) hrows)

section Ordered

variable (hcol : first.col ≤ last.col) (hrow : first.row ≤ last.row)
include hcol hrow

theorem countable_of_length_le {limit : Nat} (hlimit : limit + 1 < UInt64.size)
    (h : (rectangle first last).length ≤ limit) : Countable first last := by
  rw [length_rectangle] at h
  have hcols := Nat.le_mul_of_pos_right (last.col + 1 - first.col)
    (show 0 < last.row + 1 - first.row by omega)
  have hrows := Nat.le_mul_of_pos_left (last.row + 1 - first.row)
    (show 0 < last.col + 1 - first.col by omega)
  constructor <;> omega

end Ordered

end SheetScript.CellRef
