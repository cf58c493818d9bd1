import SheetScript.Document.Dependents
import SheetScript.Formula.Error

/-!
# Documents

A document is a grid that can be edited: with undo and redo, a cursor, a message waiting to be
shown, and the values of formulas that are already computed. The dependents of every cell are kept
beside the grid so that a change drops just the values that it makes stale.
-/

namespace SheetScript

/-- A change of one cell, with the cell before and after it. -/
structure Edit where
  ref : CellRef
  before : Option Cell
  after : Option Cell

/-- The state of a spreadsheet. -/
structure Document where
  grid : Grid := ∅
  /-- The cell under the cursor. -/
  cursor : CellRef := ⟨0, 0⟩
  /-- The message waiting to be shown. -/
  flash : Option String := none
  /-- The edits that can be undone, the latest first. -/
  undoStack : List Edit := []
  /-- The edits that can be redone, the one undone last first. -/
  redoStack : List Edit := []
  /-- The dependency graph of the grid, backwards. -/
  dependents : Dependents := ∅
  /-- Values of formulas that no change has made stale. -/
  cache : ValueCache := ∅

namespace Document

/-- A document without cells, the cursor at the first cell. -/
def empty : Document := {}

instance : Inhabited Document := ⟨empty⟩

/-- The most edits that can be undone. -/
def maxUndo : Nat := 100

/-- The most formula cells that are evaluated inside one another. -/
def maxLevels : Nat := 256

/-- There is an edit to take back. -/
def canUndo (doc : Document) : Bool := !doc.undoStack.isEmpty

/-- There is an edit to repeat. -/
def canRedo (doc : Document) : Bool := !doc.redoStack.isEmpty

/-! ## Cursor and message -/

/-- Puts the cursor onto a cell. -/
def setCursor (doc : Document) (ref : CellRef) : Document := { doc with cursor := ref }

/-- Moves the cursor, at most to the edges of the sheet. -/
def moveCursor (doc : Document) (dcol drow : Int) : Document :=
  { doc with cursor := doc.cursor.offset dcol drow }

/-- Leaves a message to be shown, in place of the one before. -/
def setFlash (doc : Document) (message : String) : Document := { doc with flash := some message }

/-- The document after its message was taken away. -/
def clearFlash (doc : Document) : Document := { doc with flash := none }

/-- The text of a cell as it would be typed in again; empty for a missing cell. -/
def cellText (doc : Document) (ref : CellRef) : String :=
  match doc.grid[ref]? with
  | some cell => cell.content.toInput
  | none => ""

end Document

/-- What can go wrong with a document. -/
inductive DocumentError where
  | formula (error : FormulaError)
  /-- A formula would make its cell depend on itself, along the given path. -/
  | circularDependency (path : List CellRef)
  | invalidCellRef (text : String)
  | nothingToUndo
  | nothingToRedo

/-- The wording of a document error. -/
def DocumentError.message : DocumentError → String
  | formula error => s!"Formula error: {error.message}"
  | circularDependency path =>
    "Circular dependency detected: " ++ " -> ".intercalate (path.map CellRef.name)
  | invalidCellRef text => s!"Invalid cell reference \"{text}\""
  | nothingToUndo => "Nothing to undo"
  | nothingToRedo => "Nothing to redo"

end SheetScript
