import SheetScript.Document.Basic
import SheetScript.Formula.Value

/-!
# The values of cells

A cell that holds a number is worth that number, a formula is worth what it evaluates to, and all
other cells are worth zero. The values of formulas are kept until a change makes them stale;
failures are not kept. Formulas that read one another through more than `Document.maxLevels` cells
fail.
-/

namespace SheetScript

open Formula (Lookup CellSource evaluate)

/-- The value of a cell, where `inner` gives the values of the cells that its formula reads; without
`inner` no formula can be evaluated any more. -/
def Grid.valueStep (grid : Grid) (inner : Option (CellRef → Lookup ValueCache Float))
    (ref : CellRef) : Lookup ValueCache Float :=
  match grid[ref]? with
  | none => return 0
  | some cell =>
    match cell.content with
    | .number value => return value
    | .empty | .text _ => return 0
    | .formula _ => do
      match (← get)[ref]?, inner with
      | some value, _ => return value
      | none, none => throw (.recursionLimit Document.maxLevels)
      | none, some inner =>
        let value ← evaluate .wraps ⟨inner, grid.hasValue⟩ cell.nodes
        modify (·.insert ref value)
        return value

/-- The value of a cell, with at most `levels` formulas evaluated inside one another. -/
def Grid.value (grid : Grid) : (levels : Nat) → CellRef → Lookup ValueCache Float
  | 0 => grid.valueStep none
  | levels + 1 => grid.valueStep (some (grid.value levels))

namespace Document

/-- The value of a cell. -/
def cellValue (doc : Document) (ref : CellRef) : Except FormulaError Float × Document :=
  let (result, cache) := doc.grid.value maxLevels ref doc.cache
  (result, { doc with cache })

/-- The value of a cell as scripts see it: a formula that fails is worth zero, unless it fails
because formulas are nested too deeply. -/
def numericValue (doc : Document) (ref : CellRef) : Except DocumentError Float × Document :=
  match doc.cellValue ref with
  | (.ok value, doc) => (.ok value, doc)
  | (.error (.recursionLimit limit), doc) => (.error (.formula (.recursionLimit limit)), doc)
  | (.error _, doc) => (.ok 0, doc)

/-- The text that a grid shows for a cell. -/
def cellDisplay (doc : Document) (ref : CellRef) : String × Document :=
  match doc.grid[ref]? with
  | none => ("", doc)
  | some cell =>
    match cell.content with
    | .empty => ("", doc)
    | .text text => (text, doc)
    | .number value => (Number.format .display value, doc)
    | .formula _ =>
      match doc.cellValue ref with
      | (.ok value, doc) => (Number.format .display value, doc)
      | (.error _, doc) => ("#ERR!", doc)

end Document

end SheetScript
