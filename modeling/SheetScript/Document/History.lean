import SheetScript.Document.Basic

/-!
# Editing a document

Every change goes through `replace`, which keeps the dependents and the computed values in step
with the grid. `setText` and `clear` record the change so that `undo` and `redo` can move back and
forth; a new edit forgets what was undone.

A formula that would make its cell depend on itself is refused, and a document that refuses an edit
stays as it is. To find out, `typeText` stores the formula on trial and puts back what was there
before; `setText` is the same change as a function from document to document.
-/

namespace SheetScript

namespace Document

/-- Stores or removes a cell and drops the values that the change makes stale. -/
def replace (doc : Document) (ref : CellRef) (cell : Option Cell) : Document :=
  let released := doc.dependents.removeUsers ref (doc.grid.precedents ref)
  let dependents :=
    match cell with
    | some cell => released.addUsers ref cell.precedents
    | none => released
  { doc with
    grid := doc.grid.put ref cell
    dependents
    cache := dependents.dropStale doc.cache [ref] }

/-- Stores or removes a cell as a new edit. The oldest edit is forgotten when there are too many. -/
def edit (doc : Document) (ref : CellRef) (cell : Option Cell) : Document :=
  let recorded : Edit := ⟨ref, doc.grid[ref]?, cell⟩
  let undoStack := (recorded :: doc.undoStack).take maxUndo
  { doc with undoStack, redoStack := [] }.replace ref cell

/-- Removes a cell; nothing happens if it is missing. -/
def clear (doc : Document) (ref : CellRef) : Document :=
  if ref ∈ doc.grid then doc.edit ref none else doc

/-- The path on which a cell would depend on itself, if it held `cell`. -/
def cycleWith (doc : Document) (ref : CellRef) (cell : Cell) : Option (List CellRef) :=
  if cell.content.isFormula then Grid.findCycle (doc.grid.insert ref cell) ref else none

/-- Types a text into a cell. A blank text clears the cell. -/
def setText (doc : Document) (ref : CellRef) (input : String) : Except DocumentError Document :=
  let cell := Cell.ofInput input
  if cell.content.isEmpty then .ok (doc.clear ref)
  else
    match doc.cycleWith ref cell with
    | some path => .error (.circularDependency path)
    | none => .ok (doc.edit ref (some cell))

/-- Looks at the grid with a cell stored on trial, and puts back what was there before. -/
def onTrial {α : Type} (doc : Document) (ref : CellRef) (cell : Cell) (look : Grid → α) :
    α × Document :=
  let before := doc.grid[ref]?
  let tried := { doc with grid := doc.grid.insert ref cell }
  (look tried.grid, { tried with grid := tried.grid.put ref before })

/-- Types a text into a cell of a document that is changed in place. What is left after an error is
part of the answer. -/
def typeText (doc : Document) (ref : CellRef) (input : String) :
    Except DocumentError Unit × Document :=
  let cell := Cell.ofInput input
  if cell.content.isEmpty then (.ok (), doc.clear ref)
  else if cell.content.isFormula then
    match doc.onTrial ref cell (Grid.findCycle · ref) with
    | (some path, doc) => (.error (.circularDependency path), doc)
    | (none, doc) => (.ok (), doc.edit ref (some cell))
  else (.ok (), doc.edit ref (some cell))

/-- Takes back the latest edit. -/
def undo (doc : Document) : Except DocumentError Document :=
  match doc.undoStack with
  | [] => .error .nothingToUndo
  | edit :: undoStack =>
    let undone : Edit := ⟨edit.ref, edit.before, doc.grid[edit.ref]?⟩
    let redoStack := undone :: doc.redoStack
    .ok ({ doc with undoStack, redoStack }.replace edit.ref edit.before)

/-- Repeats the edit that was taken back last. -/
def redo (doc : Document) : Except DocumentError Document :=
  match doc.redoStack with
  | [] => .error .nothingToRedo
  | edit :: redoStack =>
    let redone : Edit := ⟨edit.ref, doc.grid[edit.ref]?, edit.after⟩
    let undoStack := redone :: doc.undoStack
    .ok ({ doc with undoStack, redoStack }.replace edit.ref edit.after)

end Document

end SheetScript
