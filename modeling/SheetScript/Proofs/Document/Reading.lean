import SheetScript.Proofs.Document.Chain

/-!
# Reading before reading

A read stores values, so that a later read of a cell above evaluates fewer formulas inside one
another. Within the limit of levels nobody can tell. A read that fails for the limit may have a
value after other reads; every other answer stays as it is, and no read takes an answer away
(`ReadsTo.cellValue`).
-/

namespace SheetScript

open Formula Relation

namespace Document

variable {doc between later : Document} {ref : CellRef} {action : Action}

/-- The second document is the first one after some reads. -/
structure ReadsTo (doc later : Document) : Prop where
  grid : later.grid = doc.grid
  stores : doc.grid.WithinClosed doc.cache later.cache

theorem ReadsTo.trans (h : doc.ReadsTo between) (h' : between.ReadsTo later) :
    doc.ReadsTo later where
  grid := h'.grid.trans h.grid
  stores := ⟨trans_of Grid.Within h.stores.within h'.stores.within, h.grid ▸ h'.stores.closed⟩

theorem ReadsTo.closed (h : doc.ReadsTo later) : later.grid.Closed later.cache :=
  h.grid ▸ h.stores.closed

/-- What a document answers for a cell: its value, its value as scripts see it, and the text that a
grid shows. -/
def answers (doc : Document) (ref : CellRef) :
    Except FormulaError Float × Except DocumentError Float × String :=
  ((doc.cellValue ref).1, (doc.numericValue ref).1, (doc.cellDisplay ref).1)

/-- After some reads a cell has the value that it had, unless there was none for the limit. -/
theorem ReadsTo.cellValue (h : doc.ReadsTo later) (ref : CellRef) :
    (later.cellValue ref).1 = (doc.cellValue ref).1 ∨
      (doc.cellValue ref).1 = .error (.recursionLimit maxLevels) := by
  have hread := Grid.inStep_value maxLevels ref doc.cache later.cache h.stores
  have hlater : (later.cellValue ref).1 = (doc.grid.value maxLevels ref later.cache).1 := by
    rw [← h.grid]
    rfl
  have hdoc : (doc.cellValue ref).1 = (doc.grid.value maxLevels ref doc.cache).1 := rfl
  rw [hlater, hdoc]
  generalize doc.grid.value maxLevels ref doc.cache = ended at hread
  generalize doc.grid.value maxLevels ref later.cache = ended' at hread
  cases hread with
  | left he => exact Or.inr (congrArg Except.error he)
  | right he => exact he.elim
  | same => exact Or.inl rfl

end Document

end SheetScript
