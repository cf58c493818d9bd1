import SheetScript.Proofs.Grid.Search

/-!
# Sound grids

A grid is *sound* when each of its cells was made from a content, so that the cell's precedents
belong to its formula, and no cell depends on itself. Storing a made cell that does not depend on
itself and removing a cell keep a grid sound.
-/

namespace SheetScript

/-- The cell was made from its content. -/
def Cell.Made (cell : Cell) : Prop := cell = Cell.ofContent cell.content

theorem Cell.made_ofInput (input : String) : (Cell.ofInput input).Made := by
  rw [Made, ofInput, content_ofContent]

theorem Cell.Made.precedents_eq_nil {cell : Cell} (h : cell.Made)
    (hformula : cell.content.isFormula = false) : cell.precedents = [] := by
  rw [h]
  generalize cell.content = content at hformula
  cases content with
  | formula source => cases hformula
  | _ => rfl

theorem Cell.Made.precedents_eq {cell : Cell} (h : cell.Made) :
    cell.precedents = Formula.precedents cell.nodes := by
  rw [h]
  cases cell.content <;> rfl

namespace Grid

/-- Every cell was made from its content, and no cell depends on itself. -/
structure Sound (grid : Grid) : Prop where
  made : ∀ (ref : CellRef) (cell : Cell), grid[ref]? = some cell → cell.Made
  grounded : grid.Grounded

variable {grid : Grid} {ref : CellRef}

/-- Every precedent of the nodes of a cell is read by the cell. -/
theorem Sound.readBy_of_mem_precedents (h : grid.Sound) {cell : Cell}
    (hcell : grid[ref]? = some cell) {read : CellRef}
    (hread : read ∈ Formula.precedents cell.nodes) : grid.ReadBy read ref := by
  rw [ReadBy, precedents_eq, hcell]
  show read ∈ cell.precedents
  rwa [(h.made ref cell hcell).precedents_eq]

theorem sound_empty : (∅ : Grid).Sound where
  made ref cell h := by simp at h
  grounded := grounded_empty

theorem Sound.erase (h : grid.Sound) (ref : CellRef) : (grid.put ref none).Sound where
  made other cell hcell := by
    rw [getElem?_put] at hcell
    split_ifs at hcell
    exact h.made other cell hcell
  grounded := h.grounded.put_of_precedents_eq_nil rfl

theorem Sound.insert (h : grid.Sound) {cell : Cell} (hmade : cell.Made)
    (hcyc : ¬ (grid.put ref (some cell)).Cyclic ref) : (grid.put ref (some cell)).Sound where
  made other cell' hcell := by
    rw [getElem?_put] at hcell
    split_ifs at hcell with heq
    · exact Option.some.inj hcell ▸ hmade
    · exact h.made other cell' hcell
  grounded := h.grounded.put (h.grounded.acc_put_iff.2 hcyc)

end Grid

end SheetScript
