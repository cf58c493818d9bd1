import Mathlib.Order.Basic
import SheetScript.Proofs.Document.Run
import SheetScript.Proofs.Grid.Sound

/-!
# A document as a history of grids

A *history* holds whole grids: the past ones, the present one, and the future ones that undoing
left behind. A document stores edits of single cells in their place. `Refines` relates the two:
every stored edit leads from one grid of the history to the next, and back.

Every run of a document refines the run of a history (`run_refines_history`). So undoing and redoing
move along a line of grids that were all accepted once, and no run leads to a cell that depends on
itself (`not_cyclic_run`), although only typing a formula looks for cycles.
-/

namespace SheetScript

open Document (Request Action)

/-! ## Histories -/

/-- Why a request is refused. -/
inductive Refusal where
  /-- The formula would make its cell depend on itself. -/
  | circular
  | nothingToUndo
  | nothingToRedo
  /-- The document refuses for a reason that no request can give. -/
  | other
deriving DecidableEq, Repr

/-- The reason for a document error. -/
def DocumentError.refusal : DocumentError → Refusal
  | circularDependency _ => .circular
  | nothingToUndo => .nothingToUndo
  | nothingToRedo => .nothingToRedo
  | formula _ | invalidCellRef _ => .other

/-- The grids that a document went through. -/
structure History where
  /-- The grids to go back to, the latest first. -/
  past : List Grid := []
  present : Grid := ∅
  /-- The grids to go forward to, the next first. -/
  future : List Grid := []

namespace History

/-- A history with nothing but an empty grid. -/
def empty : History := {}

/-- The history goes on with another grid. Only the latest grids of the past are kept, and the
future is forgotten. -/
def record (hist : History) (grid : Grid) : History :=
  ⟨(hist.present :: hist.past).take Document.maxUndo, grid, []⟩

/-- A missing cell is cleared without a trace. -/
def clear (hist : History) (ref : CellRef) : History :=
  if ref ∈ hist.present then hist.record (hist.present.put ref none) else hist

open Classical in
/-- The history after a request. A formula is refused when the grid with it would make its cell
depend on itself. -/
noncomputable def attempt (hist : History) : Request → Except Refusal History
  | .setText ref input =>
    let cell := Cell.ofInput input
    if cell.content.isEmpty then .ok (hist.clear ref)
    else if (hist.present.put ref (some cell)).Cyclic ref then .error .circular
    else .ok (hist.record (hist.present.put ref (some cell)))
  | .clear ref => .ok (hist.clear ref)
  | .undo =>
    match hist.past with
    | [] => .error .nothingToUndo
    | grid :: past => .ok ⟨past, grid, hist.present :: hist.future⟩
  | .redo =>
    match hist.future with
    | [] => .error .nothingToRedo
    | grid :: future => .ok ⟨hist.present :: hist.past, grid, future⟩

/-- The reason for which a history refuses a request, if it does. -/
noncomputable def refusal? (hist : History) (request : Request) : Option Refusal :=
  match hist.attempt request with
  | .ok _ => none
  | .error refusal => some refusal

/-- The history after an action. Reading changes no grid. -/
noncomputable def act (hist : History) : Action → History
  | .request request =>
    match hist.attempt request with
    | .ok hist => hist
    | .error _ => hist
  | .cellValue _ | .numericValue _ | .cellDisplay _ => hist

/-- The history after some actions, one after the other. -/
noncomputable def run (hist : History) (actions : List Action) : History :=
  actions.foldl act hist

/-- A property of all grids of a history. -/
structure All (P : Grid → Prop) (hist : History) : Prop where
  past : ∀ grid ∈ hist.past, P grid
  present : P hist.present
  future : ∀ grid ∈ hist.future, P grid

variable {P : Grid → Prop} {hist : History}

theorem All.record (h : hist.All P) {grid : Grid} (hgrid : P grid) : (hist.record grid).All P where
  past other hother := by
    rcases List.mem_cons.1 (List.mem_of_mem_take hother) with rfl | hother
    · exact h.present
    · exact h.past other hother
  present := hgrid
  future _ hother := absurd hother List.not_mem_nil

/-- Where a request can lead a history. -/
inductive Move (hist : History) : History → Prop
  | stay : Move hist hist
  | erase {ref : CellRef} (hmem : ref ∈ hist.present) :
      Move hist (hist.record (hist.present.put ref none))
  | store {ref : CellRef} {input : String} (hempty : ¬ (Cell.ofInput input).content.isEmpty)
      (hcyc : ¬ (hist.present.put ref (some (Cell.ofInput input))).Cyclic ref) :
      Move hist (hist.record (hist.present.put ref (some (Cell.ofInput input))))
  | back {grid : Grid} {past : List Grid} (hpast : hist.past = grid :: past) :
      Move hist ⟨past, grid, hist.present :: hist.future⟩
  | forth {grid : Grid} {future : List Grid} (hfuture : hist.future = grid :: future) :
      Move hist ⟨hist.present :: hist.past, grid, future⟩

variable {hist' : History}

theorem move_clear (hist : History) (ref : CellRef) : hist.Move (hist.clear ref) := by
  unfold clear
  split_ifs with hmem
  · exact .erase hmem
  · exact .stay

theorem move_of_attempt {request : Request} (h : hist.attempt request = .ok hist') :
    hist.Move hist' := by
  cases request with
  | setText ref input =>
    simp only [attempt] at h
    split_ifs at h with hempty hcyc
    · cases h
      exact hist.move_clear ref
    · cases h
      exact .store hempty hcyc
  | clear ref =>
    cases h
    exact hist.move_clear ref
  | undo =>
    simp only [attempt] at h
    split at h
    next => cases h
    next grid past hpast =>
      cases h
      exact .back hpast
  | redo =>
    simp only [attempt] at h
    split at h
    next => cases h
    next grid future hfuture =>
      cases h
      exact .forth hfuture

/-- All grids stay sound: a new one was looked at for cycles, and the others were there before. -/
theorem Move.all_sound (h : hist.Move hist') (hall : hist.All Grid.Sound) :
    hist'.All Grid.Sound := by
  cases h with
  | stay => exact hall
  | erase => exact hall.record (hall.present.erase _)
  | store _ hcyc => exact hall.record (hall.present.insert (Cell.made_ofInput _) hcyc)
  | back hpast =>
    obtain ⟨hgrid, hpast⟩ := List.forall_mem_cons.1 (hpast ▸ hall.past)
    exact ⟨hpast, hgrid, List.forall_mem_cons.2 ⟨hall.present, hall.future⟩⟩
  | forth hfuture =>
    obtain ⟨hgrid, hfuture⟩ := List.forall_mem_cons.1 (hfuture ▸ hall.future)
    exact ⟨List.forall_mem_cons.2 ⟨hall.present, hall.past⟩, hgrid, hfuture⟩

/-- How many grids a history keeps beside the present one. -/
def size (hist : History) : Nat := hist.past.length + hist.future.length

theorem size_record_le (hist : History) (grid : Grid) :
    (hist.record grid).size ≤ Document.maxUndo := by
  simp only [size, record, List.length_nil, Nat.add_zero]
  exact List.length_take_le _ _

/-- Going back and forth moves a grid across the present one, so only a new grid adds to them. -/
theorem Move.size_le (h : hist.Move hist') (hsize : hist.size ≤ Document.maxUndo) :
    hist'.size ≤ Document.maxUndo := by
  cases h with
  | stay => exact hsize
  | erase => exact size_record_le hist _
  | store => exact size_record_le hist _
  | back hpast =>
    simp only [size, hpast, List.length_cons] at hsize ⊢
    omega
  | forth hfuture =>
    simp only [size, hfuture, List.length_cons] at hsize ⊢
    omega

end History

/-! ## Edits between grids -/

/-- The edit leads from one grid to the other, and back. -/
structure Edit.Joins (e : Edit) (before after : Grid) : Prop where
  after_eq : after = before.put e.ref e.after
  before_eq : before = after.put e.ref e.before

theorem Edit.joins_put (grid : Grid) (ref : CellRef) (cell : Option Cell) :
    Edit.Joins ⟨ref, grid[ref]?, cell⟩ grid (grid.put ref cell) where
  after_eq := rfl
  before_eq := by rw [Grid.put_put, Grid.put_getElem?]

/-- Taking the edit back leads from one grid to the other. -/
def Edit.JoinsBack (e : Edit) (after before : Grid) : Prop := e.Joins before after

variable {e : Edit} {before after : Grid}

theorem Edit.Joins.getElem?_after (h : e.Joins before after) : after[e.ref]? = e.after := by
  rw [h.after_eq, Grid.getElem?_put, if_pos rfl]

theorem Edit.Joins.getElem?_before (h : e.Joins before after) : before[e.ref]? = e.before := by
  rw [h.before_eq, Grid.getElem?_put, if_pos rfl]

/-- The edits lead from a grid through the given grids, one after the other. -/
inductive Leads (joins : Edit → Grid → Grid → Prop) : Grid → List Edit → List Grid → Prop
  | nil (grid : Grid) : Leads joins grid [] []
  | cons {grid next : Grid} {e : Edit} {edits : List Edit} {grids : List Grid} :
      joins e grid next → Leads joins next edits grids →
      Leads joins grid (e :: edits) (next :: grids)

variable {joins : Edit → Grid → Grid → Prop} {grid : Grid} {edits : List Edit} {grids : List Grid}

theorem Leads.exists_of_cons (h : Leads joins grid (e :: edits) grids) :
    ∃ next rest, grids = next :: rest ∧ joins e grid next ∧ Leads joins next edits rest := by
  cases h with
  | cons hjoins hrest => exact ⟨_, _, rfl, hjoins, hrest⟩

theorem Leads.length_eq (h : Leads joins grid edits grids) : edits.length = grids.length := by
  induction h with
  | nil => rfl
  | cons _ _ ih => rw [List.length_cons, List.length_cons, ih]

theorem Leads.take (h : Leads joins grid edits grids) (n : Nat) :
    Leads joins grid (edits.take n) (grids.take n) := by
  induction h generalizing n with
  | nil grid =>
    rw [List.take_nil, List.take_nil]
    exact .nil grid
  | cons hjoins _ ih =>
    cases n with
    | zero => exact .nil _
    | succ n => exact .cons hjoins (ih n)

namespace Document

/-- The document stores the history: its grid is the present one, and its stacks lead through the
past and the future. -/
structure Refines (doc : Document) (hist : History) : Prop where
  present : doc.grid = hist.present
  past : Leads Edit.JoinsBack hist.present doc.undoStack hist.past
  future : Leads Edit.Joins hist.present doc.redoStack hist.future

theorem refines_empty : empty.Refines History.empty := ⟨rfl, .nil ∅, .nil ∅⟩

variable {doc doc' : Document} {hist : History} {ref : CellRef} {cell : Option Cell}

/-! ## One step -/

theorem Refines.edit (h : doc.Refines hist) (ref : CellRef) (cell : Option Cell) :
    (doc.edit ref cell).Refines (hist.record (hist.present.put ref cell)) := by
  rcases hist with ⟨past, present, future⟩
  obtain ⟨rfl, hpast, -⟩ := h
  have hjoins : Edit.JoinsBack _ _ _ := Edit.joins_put doc.grid ref cell
  exact ⟨rfl, (Leads.cons hjoins hpast).take maxUndo, .nil _⟩

theorem Refines.clear (h : doc.Refines hist) (ref : CellRef) :
    (doc.clear ref).Refines (hist.clear ref) := by
  unfold Document.clear History.clear
  rw [← h.present]
  split_ifs
  · rw [h.present]
    exact h.edit ref none
  · exact h

/-- Undoing moves the latest edit, as it was recorded, from one stack to the other. -/
theorem Refines.undo_eq (h : doc.Refines hist) (hstack : doc.undoStack = e :: edits) :
    doc.undo = .ok ({ doc with undoStack := edits, redoStack := e :: doc.redoStack }.replace
      e.ref e.before) := by
  obtain ⟨_, _, -, hjoins, -⟩ := (hstack ▸ h.past).exists_of_cons
  unfold Document.undo
  rw [hstack]
  dsimp only
  rw [h.present, hjoins.getElem?_after]

/-- Redoing moves the edit undone last, as it was recorded, back. -/
theorem Refines.redo_eq (h : doc.Refines hist) (hstack : doc.redoStack = e :: edits) :
    doc.redo = .ok ({ doc with undoStack := e :: doc.undoStack, redoStack := edits }.replace
      e.ref e.after) := by
  obtain ⟨_, _, -, hjoins, -⟩ := (hstack ▸ h.future).exists_of_cons
  unfold Document.redo
  rw [hstack]
  dsimp only
  rw [h.present, hjoins.getElem?_before]

/-- What a document and a history answer to the same request. -/
def Matches : Except DocumentError Document → Except Refusal History → Prop
  | .ok doc, .ok hist => doc.Refines hist
  | .error e, .error refusal => e.refusal = refusal
  | _, _ => False

theorem Refines.undo (h : doc.Refines hist) : Matches doc.undo (hist.attempt .undo) := by
  cases hstack : doc.undoStack with
  | nil =>
    have hnone : hist.past = [] := List.length_eq_zero_iff.1 (h.past.length_eq ▸ hstack ▸ rfl)
    unfold Document.undo History.attempt
    rw [hstack, hnone]
    rfl
  | cons e edits =>
    obtain ⟨next, rest, hpast, hjoins, hrest⟩ := (hstack ▸ h.past).exists_of_cons
    rw [h.undo_eq hstack]
    unfold History.attempt
    rw [hpast]
    refine ⟨?_, hrest, .cons hjoins h.future⟩
    exact (congrArg (Grid.put · e.ref e.before) h.present).trans hjoins.before_eq.symm

theorem Refines.redo (h : doc.Refines hist) : Matches doc.redo (hist.attempt .redo) := by
  cases hstack : doc.redoStack with
  | nil =>
    have hnone : hist.future = [] := List.length_eq_zero_iff.1 (h.future.length_eq ▸ hstack ▸ rfl)
    unfold Document.redo History.attempt
    rw [hstack, hnone]
    rfl
  | cons e edits =>
    obtain ⟨next, rest, hfuture, hjoins, hrest⟩ := (hstack ▸ h.future).exists_of_cons
    rw [h.redo_eq hstack]
    unfold History.attempt
    rw [hfuture]
    refine ⟨?_, .cons hjoins h.past, hrest⟩
    exact (congrArg (Grid.put · e.ref e.after) h.present).trans hjoins.after_eq.symm

/-- A made cell is refused exactly when it would depend on itself. -/
theorem cycleWith_eq_none_iff (hgrid : doc.grid.Sound) (ref : CellRef) {made : Cell}
    (hmade : made.Made) :
    doc.cycleWith ref made = none ↔ ¬ (doc.grid.put ref (some made)).Cyclic ref := by
  unfold cycleWith
  split_ifs with hformula
  · rw [← hgrid.grounded.acc_put_iff]
    exact Grid.findCycle_eq_none_iff
  · have hnil : made.precedents = [] := hmade.precedents_eq_nil (by simpa using hformula)
    have hput : (doc.grid.put ref (some made)).Grounded :=
      hgrid.grounded.put_of_precedents_eq_nil hnil
    exact iff_of_true rfl (hput.not_cyclic ref)

theorem Refines.setText (h : doc.Refines hist) (hall : hist.All Grid.Sound) (ref : CellRef)
    (input : String) : Matches (doc.setText ref input) (hist.attempt (.setText ref input)) := by
  have hgrid : doc.grid.Sound := h.present ▸ hall.present
  have hcycle := cycleWith_eq_none_iff hgrid ref (Cell.made_ofInput input)
  simp only [Document.setText, History.attempt]
  split_ifs with hempty hcyc
  · exact h.clear ref
  · rw [← h.present] at hcyc
    cases hres : doc.cycleWith ref (Cell.ofInput input) with
    | some path => rfl
    | none => exact absurd hcyc (hcycle.1 hres)
  · rw [← h.present] at hcyc
    rw [hcycle.2 hcyc]
    exact h.edit ref (some (Cell.ofInput input))

/-- A document and the history that it stores answer every request alike. -/
theorem Refines.attempt (h : doc.Refines hist) (hall : hist.All Grid.Sound) (request : Request) :
    Matches (doc.attempt request) (hist.attempt request) := by
  cases request with
  | setText ref input => exact h.setText hall ref input
  | clear ref => exact h.clear ref
  | undo => exact h.undo
  | redo => exact h.redo

/-! ## Whole runs -/

/-- A document that stores a history of sound grids, not too many of them. -/
structure Follows (doc : Document) (hist : History) : Prop where
  refines : doc.Refines hist
  sound : hist.All Grid.Sound
  size_le : hist.size ≤ maxUndo

theorem follows_empty : empty.Follows History.empty where
  refines := refines_empty
  sound := ⟨fun _ h => absurd h List.not_mem_nil, Grid.sound_empty,
    fun _ h => absurd h List.not_mem_nil⟩
  size_le := Nat.zero_le _

theorem Refines.of_reading (h : doc.Refines hist) (ref : CellRef) :
    (doc.cellValue ref).2.Refines hist := ⟨h.present, h.past, h.future⟩

theorem Follows.act (h : doc.Follows hist) (action : Action) :
    (doc.act action).Follows (hist.act action) := by
  cases action with
  | request request =>
    have hmatch := h.refines.attempt h.sound request
    simp only [Document.act, History.act]
    cases hdoc : doc.attempt request <;> cases hhist : hist.attempt request <;>
      rw [hdoc, hhist] at hmatch
    · exact h
    · exact hmatch.elim
    · exact hmatch.elim
    · have hmove := History.move_of_attempt hhist
      exact ⟨hmatch, hmove.all_sound h.sound, hmove.size_le h.size_le⟩
  | cellValue ref => exact ⟨h.refines.of_reading ref, h.sound, h.size_le⟩
  | numericValue ref =>
    rw [Document.act, numericValue_snd]
    exact ⟨h.refines.of_reading ref, h.sound, h.size_le⟩
  | cellDisplay ref =>
    rw [Document.act]
    rcases doc.cellDisplay_snd ref with heq | heq <;> rw [heq]
    · exact h
    · exact ⟨h.refines.of_reading ref, h.sound, h.size_le⟩

theorem Follows.run (h : doc.Follows hist) (actions : List Action) :
    (doc.run actions).Follows (hist.run actions) := by
  induction actions generalizing doc hist with
  | nil => exact h
  | cons action actions ih => exact ih (h.act action)

theorem follows_run (actions : List Action) :
    (empty.run actions).Follows (History.empty.run actions) :=
  follows_empty.run actions

/-! ## Back and forth -/

/-- The documents agree on their grids and stacks. -/
structure Alike (a b : Document) : Prop where
  grid : a.grid = b.grid
  undoStack : a.undoStack = b.undoStack
  redoStack : a.redoStack = b.redoStack

variable {a b c a' : Document}

theorem Alike.symm (h : a.Alike b) : b.Alike a := ⟨h.grid.symm, h.undoStack.symm, h.redoStack.symm⟩

theorem Alike.trans (hab : a.Alike b) (hbc : b.Alike c) : a.Alike c :=
  ⟨hab.grid.trans hbc.grid, hab.undoStack.trans hbc.undoStack, hab.redoStack.trans hbc.redoStack⟩

theorem Alike.redo (h : a.Alike b) (ha : a.redo = .ok a') :
    ∃ b', b.redo = .ok b' ∧ a'.Alike b' := by
  unfold Document.redo at ha ⊢
  rw [← h.redoStack, ← h.undoStack, ← h.grid]
  split at ha
  · cases ha
  · cases ha
    exact ⟨_, rfl, rfl, rfl, rfl⟩

/-- A move made some number of times. -/
def times (move : Document → Except DocumentError Document) :
    Nat → Document → Except DocumentError Document
  | 0, doc => .ok doc
  | n + 1, doc => move doc >>= times move n

variable {move : Document → Except DocumentError Document}

theorem times_succ (n : Nat) (doc : Document) :
    times move (n + 1) doc = times move n doc >>= move := by
  induction n generalizing doc with
  | zero =>
    show (move doc >>= fun doc => .ok doc) = move doc
    cases move doc <;> rfl
  | succ n ih =>
    show (move doc >>= times move (n + 1)) = (move doc >>= times move n) >>= move
    cases move doc with
    | error e => rfl
    | ok doc => exact ih doc

theorem exists_of_times_succ {n : Nat} (h : times move (n + 1) doc = .ok doc') :
    ∃ first, move doc = .ok first ∧ times move n first = .ok doc' := by
  rw [times] at h
  cases hfirst : move doc with
  | error e =>
    rw [hfirst] at h
    cases h
  | ok first =>
    rw [hfirst] at h
    exact ⟨first, rfl, h⟩

theorem Follows.undo (h : doc.Follows hist) (hundo : doc.undo = .ok doc') :
    ∃ hist', doc'.Follows hist' := by
  have hact : doc.act (.request .undo) = doc' := by rw [Document.act, attempt, hundo]
  exact ⟨_, hact ▸ h.act (.request .undo)⟩

theorem Follows.redo_undo (h : doc.Follows hist) (hundo : doc.undo = .ok doc') :
    ∃ doc'', doc'.redo = .ok doc'' ∧ doc''.Alike doc := by
  cases hstack : doc.undoStack with
  | nil =>
    unfold Document.undo at hundo
    rw [hstack] at hundo
    cases hundo
  | cons e edits =>
    obtain ⟨next, -, -, hjoins, -⟩ := (hstack ▸ h.refines.past).exists_of_cons
    obtain ⟨hist', h'⟩ := h.undo hundo
    obtain rfl := Except.ok.inj ((h.refines.undo_eq hstack).symm.trans hundo)
    refine ⟨_, h'.refines.redo_eq rfl, ?_, hstack.symm, rfl⟩
    show (doc.grid.put e.ref e.before).put e.ref e.after = doc.grid
    rw [Grid.put_put, h.refines.present, ← hjoins.getElem?_after, Grid.put_getElem?]

theorem Follows.times_redo_undo (h : doc.Follows hist) {n : Nat}
    (hundo : times Document.undo n doc = .ok doc') :
    ∃ doc'', times Document.redo n doc' = .ok doc'' ∧ doc''.Alike doc := by
  induction n generalizing doc hist with
  | zero =>
    cases hundo
    exact ⟨_, rfl, rfl, rfl, rfl⟩
  | succ n ih =>
    obtain ⟨first, hfirst, hrest⟩ := exists_of_times_succ hundo
    obtain ⟨hist', h'⟩ := h.undo hfirst
    obtain ⟨back, hback, halike⟩ := ih h' hrest
    obtain ⟨last, hlast, hlike⟩ := h.redo_undo hfirst
    obtain ⟨last', hlast', hlike'⟩ := halike.symm.redo hlast
    refine ⟨last', ?_, hlike'.symm.trans hlike⟩
    rw [times_succ, hback]
    exact hlast'

/-! ## Main results -/

/-- The reason for which a document refuses a request, if it does. -/
def refusal? (doc : Document) (request : Request) : Option Refusal :=
  match doc.attempt request with
  | .ok _ => none
  | .error e => some e.refusal

theorem Follows.refusal?_eq (h : doc.Follows hist) (request : Request) :
    doc.refusal? request = hist.refusal? request := by
  have hmatch := h.refines.attempt h.sound request
  unfold refusal? History.refusal?
  cases hdoc : doc.attempt request <;> cases hhist : hist.attempt request <;>
    rw [hdoc, hhist] at hmatch
  · exact congrArg some hmatch
  · exact hmatch.elim
  · exact hmatch.elim

theorem Follows.length_add_length_le (h : doc.Follows hist) :
    doc.undoStack.length + doc.redoStack.length ≤ maxUndo := by
  rw [h.refines.past.length_eq, h.refines.future.length_eq]
  exact h.size_le

theorem Follows.canUndo_iff (h : doc.Follows hist) : doc.canUndo = true ↔ hist.past ≠ [] := by
  rw [canUndo, Bool.not_eq_true', List.isEmpty_eq_false_iff, Ne, ← List.length_eq_zero_iff,
    h.refines.past.length_eq, List.length_eq_zero_iff]

theorem Follows.canRedo_iff (h : doc.Follows hist) : doc.canRedo = true ↔ hist.future ≠ [] := by
  rw [canRedo, Bool.not_eq_true', List.isEmpty_eq_false_iff, Ne, ← List.length_eq_zero_iff,
    h.refines.future.length_eq, List.length_eq_zero_iff]

/-- **Undo and redo move along a line of grids.** After any actions, a document and the history of
whole grids are at the same grid, can go back and forth alike and refuse the same requests for the
same reason. The edits of both stacks are never more than `maxUndo`, and as many redos take back any
number of undos. -/
theorem run_refines_history (actions : List Action) :
    (empty.run actions).grid = (History.empty.run actions).present ∧
    ((empty.run actions).canUndo = true ↔ (History.empty.run actions).past ≠ []) ∧
    ((empty.run actions).canRedo = true ↔ (History.empty.run actions).future ≠ []) ∧
    (∀ request, (empty.run actions).refusal? request =
      (History.empty.run actions).refusal? request) ∧
    (empty.run actions).undoStack.length + (empty.run actions).redoStack.length ≤ 100 ∧
    ∀ n doc, times Document.undo n (empty.run actions) = .ok doc →
      ∃ doc', times Document.redo n doc = .ok doc' ∧ doc'.Alike (empty.run actions) := by
  have h := follows_run actions
  exact ⟨h.refines.present, h.canUndo_iff, h.canRedo_iff, h.refusal?_eq, h.length_add_length_le,
    fun _ _ hundo => h.times_redo_undo hundo⟩

/-- A cell is typed into twice and then cleared. -/
def threeEdits : List Action :=
  [.request (.setText ⟨0, 0⟩ "a"), .request (.setText ⟨0, 0⟩ "b"), .request (.clear ⟨0, 0⟩)]

/-- The edits of `threeEdits` are taken back and made again. -/
theorem run_refines_history_threeEdits :
    ∃ doc, times Document.undo 3 (empty.run threeEdits) = .ok doc ∧
      ∃ doc', times Document.redo 3 doc = .ok doc' ∧ doc'.Alike (empty.run threeEdits) :=
  ⟨_, rfl, (run_refines_history threeEdits).2.2.2.2.2 3 _ rfl⟩

/-- **No cell ever depends on itself.** Undoing and redoing install old cells without a search for
cycles, but they only go back to grids that were accepted. -/
theorem not_cyclic_run (actions : List Action) (ref : CellRef) :
    ¬ (empty.run actions).grid.Cyclic ref := by
  have h := follows_run actions
  rw [h.refines.present]
  exact h.sound.present.grounded.not_cyclic ref

end Document

end SheetScript
