import SheetScript.Document.Values
import SheetScript.Proofs.Formula.Agreement
import SheetScript.Proofs.Grid.Sound

/-!
# The values of a grid

A *valuation* gives every cell the value that its content has over the valuation itself. It knows
no store of values and no limit of levels. A sound grid has exactly one (`Sound.isValuation_iff`):
each cell is worth what its precedents make it, and following precedents ends.

A change of one cell keeps the value of every cell that does not depend on the changed one
(`Sound.value_put`).
-/

namespace SheetScript.Grid

open Formula Relation

variable {grid : Grid} {ref : CellRef} {values values' : CellRef → Except FormulaError Float}

/-- The value of a cell over the given values of the cells that it reads. -/
def valueFrom (grid : Grid) (values : CellRef → Except FormulaError Float) (ref : CellRef) :
    Except FormulaError Float :=
  match grid[ref]? with
  | none => .ok 0
  | some cell =>
    match cell.content with
    | .number x => .ok x
    | .empty | .text _ => .ok 0
    | .formula _ => evaluateWith values grid.hasValue cell.nodes

/-- Every cell has the value that its content has over these values. -/
def IsValuation (grid : Grid) (values : CellRef → Except FormulaError Float) : Prop :=
  ∀ ref, values ref = grid.valueFrom values ref

theorem hasValue_eq (grid : Grid) (ref : CellRef) :
    grid.hasValue ref = (grid[ref]?.map fun cell => !cell.content.isEmpty).getD false := by
  unfold hasValue
  cases grid[ref]? <;> rfl

/-- A cell has the same value in two grids that agree on it and on what it reads. -/
theorem Sound.valueFrom_congr {grid' : Grid} (h : grid.Sound) (hcell : grid[ref]? = grid'[ref]?)
    (hread : ∀ read, grid.ReadBy read ref →
      values read = values' read ∧ grid[read]? = grid'[read]?) :
    grid.valueFrom values ref = grid'.valueFrom values' ref := by
  unfold valueFrom
  rw [← hcell]
  cases hstored : grid[ref]? with
  | none => rfl
  | some cell =>
    dsimp only
    have hmem : ∀ read ∈ Formula.precedents cell.nodes, grid.ReadBy read ref :=
      fun _ hread => h.readBy_of_mem_precedents hstored hread
    split
    · rfl
    · rfl
    · rfl
    · refine evaluateWith_congr (fun read h => (hread read (hmem read h)).1) fun read h => ?_
      rw [hasValue_eq, hasValue_eq, (hread read (hmem read h)).2]

/-! ## Exactly one valuation -/

theorem IsValuation.eq (hvalues : grid.IsValuation values) (hvalues' : grid.IsValuation values')
    (h : grid.Sound) : values = values' := by
  funext ref
  induction ref using h.grounded.induction with
  | _ ref ih =>
    rw [hvalues ref, hvalues' ref]
    exact h.valueFrom_congr rfl fun read hread => ⟨ih read hread, rfl⟩

open Classical in
/-- The values of a sound grid, by recursion along what each cell reads. -/
noncomputable def Sound.value (h : grid.Sound) : CellRef → Except FormulaError Float :=
  h.grounded.fix fun ref inner =>
    grid.valueFrom
      (fun read => if hread : grid.ReadBy read ref then inner read hread else .ok 0) ref

theorem Sound.isValuation_value (h : grid.Sound) : grid.IsValuation h.value := by
  intro ref
  refine (WellFounded.fix_eq h.grounded _ ref).trans ?_
  refine h.valueFrom_congr rfl fun read hread => ⟨?_, rfl⟩
  exact dif_pos hread

/-- A sound grid has exactly one valuation. -/
theorem Sound.isValuation_iff (h : grid.Sound) : grid.IsValuation values ↔ values = h.value := by
  constructor
  · intro hvalues
    exact hvalues.eq h.isValuation_value h
  · rintro rfl
    exact h.isValuation_value

/-! ## A change -/

theorem Sound.value_put {cell : Option Cell} {changed : CellRef} (h : grid.Sound)
    (h' : (grid.put changed cell).Sound)
    (href : ¬ ReflTransGen (grid.put changed cell).ReadBy changed ref) :
    h'.value ref = h.value ref := by
  induction ref using h'.grounded.induction with
  | _ ref ih =>
    have hstored : ∀ other, ¬ ReflTransGen (grid.put changed cell).ReadBy changed other →
        (grid.put changed cell)[other]? = grid[other]? := by
      intro other hother
      rw [getElem?_put, if_neg]
      rintro rfl
      exact hother .refl
    have hread : ∀ read, (grid.put changed cell).ReadBy read ref →
        ¬ ReflTransGen (grid.put changed cell).ReadBy changed read :=
      fun read hread hreach => href (hreach.tail hread)
    rw [h'.isValuation_value ref, h.isValuation_value ref]
    exact h'.valueFrom_congr (hstored ref href) fun read h =>
      ⟨ih read h (hread read h), hstored read (hread read h)⟩

end SheetScript.Grid
