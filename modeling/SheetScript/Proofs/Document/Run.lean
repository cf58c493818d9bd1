import SheetScript.Document.History
import SheetScript.Document.Values

/-!
# Runs of a document

A run is any sequence of *actions*: requests to change the document, and readings of values, which
fill the store of computed values. A request may be refused; the document then stays as it is.

`attempt_eq_ok` says once what a request can do to a document: nothing, or one `replace` with new
stacks. A reading gives the document another store of values, the one that `cellValue` leaves
(`numericValue_snd`, `cellDisplay_snd`).
-/

namespace SheetScript

namespace Document

/-- A change that a document is asked for. -/
inductive Request where
  | setText (ref : CellRef) (input : String)
  | clear (ref : CellRef)
  | undo
  | redo

/-- A request, or the reading of a cell. -/
inductive Action where
  | request (request : Request)
  | cellValue (ref : CellRef)
  | numericValue (ref : CellRef)
  | cellDisplay (ref : CellRef)

/-- The document after a request, or the error with which the request is refused. -/
def attempt (doc : Document) : Request → Except DocumentError Document
  | .setText ref input => doc.setText ref input
  | .clear ref => .ok (doc.clear ref)
  | .undo => doc.undo
  | .redo => doc.redo

/-- The document after an action. -/
def act (doc : Document) : Action → Document
  | .request request =>
    match doc.attempt request with
    | .ok doc => doc
    | .error _ => doc
  | .cellValue ref => (doc.cellValue ref).2
  | .numericValue ref => (doc.numericValue ref).2
  | .cellDisplay ref => (doc.cellDisplay ref).2

/-- The document after some actions, one after the other. -/
def run (doc : Document) (actions : List Action) : Document := actions.foldl act doc

variable {doc doc' : Document}

/-! ## What an action can do -/

/-- An accepted request changes nothing, or replaces one cell and the stacks. -/
theorem attempt_eq_ok {request : Request} (h : doc.attempt request = .ok doc') :
    doc' = doc ∨ ∃ undoStack redoStack ref cell,
      doc' = { doc with undoStack, redoStack }.replace ref cell := by
  have hclear : ∀ ref, doc.clear ref = doc ∨ ∃ undoStack redoStack ref' cell,
      doc.clear ref = { doc with undoStack, redoStack }.replace ref' cell := by
    intro ref
    unfold clear
    split
    · exact Or.inr ⟨_, _, _, _, rfl⟩
    · exact Or.inl rfl
  cases request with
  | setText ref input =>
    simp only [attempt, setText] at h
    split at h
    · cases h
      exact hclear ref
    · split at h <;> cases h
      exact Or.inr ⟨_, _, _, _, rfl⟩
  | clear ref =>
    cases h
    exact hclear ref
  | undo =>
    simp only [attempt, undo] at h
    split at h <;> cases h
    exact Or.inr ⟨_, _, _, _, rfl⟩
  | redo =>
    simp only [attempt, redo] at h
    split at h <;> cases h
    exact Or.inr ⟨_, _, _, _, rfl⟩

@[simp] theorem numericValue_snd (doc : Document) (ref : CellRef) :
    (doc.numericValue ref).2 = (doc.cellValue ref).2 := by
  unfold numericValue
  split <;> simp_all

theorem cellDisplay_snd (doc : Document) (ref : CellRef) :
    (doc.cellDisplay ref).2 = doc ∨ (doc.cellDisplay ref).2 = (doc.cellValue ref).2 := by
  unfold cellDisplay
  split
  · exact Or.inl rfl
  · split
    · exact Or.inl rfl
    · exact Or.inl rfl
    · exact Or.inl rfl
    · right
      split <;> simp_all

theorem act_induction {motive : Document → Prop} {action : Action} (h : motive doc)
    (hrequest : ∀ request doc', doc.attempt request = .ok doc' → motive doc')
    (hvalue : ∀ ref, motive (doc.cellValue ref).2) : motive (doc.act action) := by
  cases action with
  | request request =>
    rw [act]
    split
    next hres => exact hrequest request _ hres
    next => exact h
  | cellValue ref => exact hvalue ref
  | numericValue ref =>
    rw [act, numericValue_snd]
    exact hvalue ref
  | cellDisplay ref =>
    rw [act]
    rcases doc.cellDisplay_snd ref with heq | heq <;> rw [heq]
    · exact h
    · exact hvalue ref

theorem run_induction {motive : Document → Prop} (h : motive doc)
    (hact : ∀ doc action, motive doc → motive (doc.act action)) (actions : List Action) :
    motive (doc.run actions) := by
  induction actions generalizing doc with
  | nil => exact h
  | cons action actions ih => exact ih (hact doc action h)

end Document

end SheetScript
