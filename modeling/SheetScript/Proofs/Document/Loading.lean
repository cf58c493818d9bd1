import Mathlib.Data.List.Perm.Basic
import SheetScript.Proofs.Document.Values
import SheetScript.Proofs.Formula.TreeValue

/-!
# Loading a document

A document is *loaded* by typing texts into different cells of an empty one. Typing looks for cycles
in what is there so far, with references to cells that are still missing. Still the order of the
texts decides nothing (`load_perm`): a document is loaded exactly when the grid with all the cells
is grounded (`exists_load_iff`), and that grid is the same for every order (`putAll_perm`).

A cycle that is found early is still there at the end: texts go into different cells, so every
formula keeps what it reads (`readBy_putAll`).
-/

namespace SheetScript

open Relation

/-- A text for each of some cells. -/
abbrev Sheet := List (CellRef × String)

/-- The cell that a typed text stores; a blank text stores none. -/
def Cell.typed? (input : String) : Option Cell :=
  if (Cell.ofInput input).content.isEmpty then none else some (Cell.ofInput input)

/-! ## The loaded grid -/

namespace Grid

/-- The grid with the cells of the texts, the later ones in place of the earlier ones. -/
def putAll (grid : Grid) (sheet : Sheet) : Grid :=
  sheet.foldl (fun grid entry => grid.put entry.1 (Cell.typed? entry.2)) grid

variable {grid : Grid} {sheet sheet' : Sheet} {ref : CellRef} {input : String}

@[simp] theorem putAll_cons (grid : Grid) (ref : CellRef) (input : String) (sheet : Sheet) :
    grid.putAll ((ref, input) :: sheet) = (grid.put ref (Cell.typed? input)).putAll sheet := rfl

theorem put_comm {other : CellRef} (h : ref ≠ other) (first second : Option Cell) :
    (grid.put ref first).put other second = (grid.put other second).put ref first := by
  apply Std.ExtTreeMap.ext_getElem?
  intro at_
  simp only [getElem?_put]
  split_ifs with hother href
  · exact absurd (href.symm.trans hother) h
  · rfl
  · rfl
  · rfl

/-- Texts in different cells make the same grid in every order. -/
theorem putAll_perm (h : sheet.Perm sheet') (hcells : (sheet.map Prod.fst).Nodup) (grid : Grid) :
    grid.putAll sheet = grid.putAll sheet' := by
  refine h.foldl_eq' ?_ grid
  rintro ⟨ref, input⟩ hfirst ⟨other, input'⟩ hsecond grid
  by_cases heq : ref = other
  · subst heq
    have hsame := List.inj_on_of_nodup_map hcells hfirst hsecond rfl
    rw [(Prod.mk.inj hsame).2]
  · exact put_comm heq _ _

theorem getElem?_putAll (h : ref ∉ sheet.map Prod.fst) :
    (grid.putAll sheet)[ref]? = grid[ref]? := by
  induction sheet generalizing grid with
  | nil => rfl
  | cons entry sheet ih =>
    rw [List.map_cons, List.mem_cons, not_or] at h
    rw [putAll_cons, ih h.2, getElem?_put, if_neg h.1]

/-- No text goes into a stored cell. -/
def Spares (grid : Grid) (sheet : Sheet) : Prop :=
  ∀ ref ∈ sheet.map Prod.fst, grid[ref]? = none

theorem readBy_putAll (h : grid.Spares sheet) {read user : CellRef} (hread : grid.ReadBy read user) :
    (grid.putAll sheet).ReadBy read user := by
  obtain ⟨cell, hcell, hmem⟩ := readBy_iff.1 hread
  have huser : user ∉ sheet.map Prod.fst := by
    intro huser
    rw [h user huser] at hcell
    cases hcell
  exact readBy_iff.2 ⟨cell, (getElem?_putAll huser).trans hcell, hmem⟩

/-- One text typed, the others still go into cells that are missing. -/
theorem Spares.put (h : grid.Spares ((ref, input) :: sheet))
    (hcells : (((ref, input) :: sheet).map Prod.fst).Nodup) (cell : Option Cell) :
    (grid.put ref cell).Spares sheet := by
  intro other hother
  rw [getElem?_put, if_neg, h other (List.mem_cons_of_mem ref hother)]
  rintro rfl
  exact (List.nodup_cons.1 hcells).1 hother

/-- A cell of a grid that grows to a grounded one does not depend on itself. -/
theorem Spares.not_cyclic (h : grid.Spares sheet) (hall : (grid.putAll sheet).Grounded)
    (ref : CellRef) : ¬ grid.Cyclic ref :=
  fun hcyc => hall.not_cyclic ref (hcyc.lift id fun _ _ => readBy_putAll h)

theorem Sound.typed (h : grid.Sound) (hcyc : ¬ (grid.put ref (Cell.typed? input)).Cyclic ref) :
    (grid.put ref (Cell.typed? input)).Sound := by
  unfold Cell.typed? at hcyc ⊢
  split_ifs at hcyc ⊢
  · exact h.erase ref
  · exact h.insert (Cell.made_ofInput input) hcyc

end Grid

/-! ## Typing one text after the other -/

namespace Document

/-- Types texts into cells, one after the other, up to the first one that is refused. -/
def load (doc : Document) (sheet : Sheet) : Except DocumentError Document :=
  sheet.foldlM (fun doc entry => doc.setText entry.1 entry.2) doc

variable {doc doc' : Document} {sheet sheet' : Sheet} {ref : CellRef} {input : String}

theorem load_cons (doc : Document) (ref : CellRef) (input : String) (sheet : Sheet) :
    doc.load ((ref, input) :: sheet) = doc.setText ref input >>= fun doc => doc.load sheet :=
  List.foldlM_cons

theorem grid_clear (doc : Document) (ref : CellRef) :
    (doc.clear ref).grid = doc.grid.put ref none := by
  unfold clear
  split_ifs with hmem
  · rfl
  · rw [← Std.ExtTreeMap.getElem?_eq_none hmem, Grid.put_getElem?]

theorem grid_setText (h : doc.setText ref input = .ok doc') :
    doc'.grid = doc.grid.put ref (Cell.typed? input) := by
  simp only [setText, Cell.typed?] at h ⊢
  split_ifs at h ⊢
  · cases h
    exact doc.grid_clear ref
  · split at h <;> cases h
    rfl

theorem exists_setText_iff (h : doc.grid.Sound) (ref : CellRef) (input : String) :
    (∃ doc', doc.setText ref input = .ok doc') ↔
      ¬ (doc.grid.put ref (Cell.typed? input)).Cyclic ref := by
  have hcycle := cycleWith_eq_none_iff h ref (Cell.made_ofInput input)
  simp only [setText, Cell.typed?]
  split_ifs with hempty
  · exact iff_of_true ⟨_, rfl⟩ ((h.erase ref).grounded.not_cyclic ref)
  · rw [← hcycle]
    cases doc.cycleWith ref (Cell.ofInput input) with
    | none => exact iff_of_true ⟨_, rfl⟩ rfl
    | some path => simp

theorem grid_load (h : doc.load sheet = .ok doc') : doc'.grid = doc.grid.putAll sheet := by
  induction sheet generalizing doc with
  | nil =>
    cases h
    rfl
  | cons entry sheet ih =>
    obtain ⟨ref, input⟩ := entry
    obtain ⟨next, hnext, hrest⟩ := Formula.bind_eq_ok.1 ((doc.load_cons ref input sheet).symm.trans h)
    rw [ih hrest, grid_setText hnext, Grid.putAll_cons]

/-- A document is loaded exactly when no formula of the whole grid depends on itself. -/
theorem exists_load_iff (hgrid : doc.grid.Sound) (hspares : doc.grid.Spares sheet)
    (hcells : (sheet.map Prod.fst).Nodup) :
    (∃ doc', doc.load sheet = .ok doc') ↔ (doc.grid.putAll sheet).Grounded := by
  induction sheet generalizing doc with
  | nil => exact iff_of_true ⟨doc, rfl⟩ hgrid.grounded
  | cons entry sheet ih =>
    obtain ⟨ref, input⟩ := entry
    have hnext := hspares.put hcells (Cell.typed? input)
    have hsetText := exists_setText_iff hgrid ref input
    simp only [load_cons, Formula.bind_eq_ok, Grid.putAll_cons]
    constructor
    · rintro ⟨doc', next, hset, hload⟩
      have hgrid' := grid_setText hset
      have hsound := hgrid' ▸ hgrid.typed (hsetText.1 ⟨next, hset⟩)
      rw [← hgrid'] at hnext ⊢
      exact (ih hsound hnext (List.nodup_cons.1 hcells).2).1 ⟨doc', hload⟩
    · intro hall
      obtain ⟨next, hset⟩ := hsetText.2 (hnext.not_cyclic hall ref)
      have hgrid' := grid_setText hset
      have hsound := hgrid' ▸ hgrid.typed (hsetText.1 ⟨next, hset⟩)
      rw [← hgrid'] at hnext hall
      obtain ⟨doc', hload⟩ := (ih hsound hnext (List.nodup_cons.1 hcells).2).2 hall
      exact ⟨doc', next, hset, hload⟩

theorem run_of_load (h : doc.load sheet = .ok doc') :
    doc.run (sheet.map fun entry => .request (.setText entry.1 entry.2)) = doc' := by
  induction sheet generalizing doc with
  | nil =>
    cases h
    rfl
  | cons entry sheet ih =>
    obtain ⟨ref, input⟩ := entry
    obtain ⟨next, hnext, hrest⟩ := Formula.bind_eq_ok.1 ((doc.load_cons ref input sheet).symm.trans h)
    have hact : doc.act (.request (.setText ref input)) = next := by
      simp only [act, attempt, hnext]
    rw [List.map_cons, run, List.foldl_cons, hact]
    exact ih hrest

/-- A document answers the values of every valuation of its grid. -/
theorem Current.cellValue_of_isValuation (h : doc.Current)
    {values : CellRef → Except FormulaError Float} (hvalues : doc.grid.IsValuation values)
    (ref : CellRef) :
    (doc.cellValue ref).1 = values ref ∨
      (doc.cellValue ref).1 = .error (.recursionLimit 256) := by
  rw [h.sound.isValuation_iff.1 hvalues]
  exact (h.cellValue_fst ref).imp And.left And.left

theorem current_load (h : empty.load sheet = .ok doc) : doc.Current :=
  run_of_load h ▸ current_run _

end Document

theorem Dependents.Mirrors.eq {grid : Grid} {dependents dependents' : Dependents}
    (h : dependents.Mirrors grid) (h' : dependents'.Mirrors grid) : dependents = dependents' := by
  have husers : ∀ ref, dependents.usersOf ref = dependents'.usersOf ref := by
    intro ref
    apply Std.ExtTreeSet.ext_mem
    intro user
    rw [h.mem_usersOf, h'.mem_usersOf]
  apply Std.ExtTreeMap.ext_getElem?
  intro ref
  have hsame := husers ref
  unfold usersOf at hsame
  cases hleft : dependents[ref]? <;> cases hright : dependents'[ref]? <;>
    simp only [hleft, hright, Option.getD_none, Option.getD_some] at hsame
  · rfl
  · exact absurd (hsame ▸ hright) (h'.noneEmpty ref)
  · exact absurd (hsame ▸ hleft) (h.noneEmpty ref)
  · rw [hsame]

namespace Document

/-- **The order of loading does not matter.** Texts for different cells are all accepted in one
order exactly if they are in every other. Then both orders give the same grid with the same
dependents, and with the same values of its cells: they are the only ones, and reading a cell
answers its value or fails for the limit of levels. -/
theorem load_perm {sheet sheet' : Sheet} (h : sheet.Perm sheet')
    (hcells : (sheet.map Prod.fst).Nodup) :
    ((∃ doc, empty.load sheet = .ok doc) ↔ ∃ doc', empty.load sheet' = .ok doc') ∧
    ∀ doc doc', empty.load sheet = .ok doc → empty.load sheet' = .ok doc' →
      doc.grid = doc'.grid ∧ doc.dependents = doc'.dependents ∧
      ∃ values : CellRef → Except FormulaError Float,
        (∀ other, doc.grid.IsValuation other ↔ other = values) ∧
        (∀ other, doc'.grid.IsValuation other ↔ other = values) ∧
        ∀ ref, ∀ loaded ∈ [doc, doc'],
          (loaded.cellValue ref).1 = values ref ∨
            (loaded.cellValue ref).1 = .error (.recursionLimit 256) := by
  have hcells' : (sheet'.map Prod.fst).Nodup := (h.map Prod.fst).nodup_iff.1 hcells
  have hspares : ∀ sheet : Sheet, empty.grid.Spares sheet := fun _ _ _ => rfl
  have hputAll := Grid.putAll_perm h hcells empty.grid
  constructor
  · rw [exists_load_iff Grid.sound_empty (hspares sheet) hcells,
      exists_load_iff Grid.sound_empty (hspares sheet') hcells', hputAll]
  -- Both documents have the same sound grid, and all that is claimed is a property of that.
  · intro doc doc' hload hload'
    have hcurrent := current_load hload
    have hcurrent' := current_load hload'
    have hgrid : doc.grid = doc'.grid := by rw [grid_load hload, grid_load hload', hputAll]
    refine ⟨hgrid, hcurrent.mirrors.eq (hgrid ▸ hcurrent'.mirrors), hcurrent.sound.value, ?_, ?_, ?_⟩
    · exact fun other => hcurrent.sound.isValuation_iff
    · intro other
      rw [← hgrid]
      exact hcurrent.sound.isValuation_iff
    · intro ref loaded hloaded
      have hvaluation := hcurrent.sound.isValuation_value
      rcases List.mem_pair.1 hloaded with rfl | rfl
      · exact hcurrent.cellValue_of_isValuation hvaluation ref
      · exact hcurrent'.cellValue_of_isValuation (hgrid ▸ hvaluation) ref

/-- A formula in front of the cell that it reads. -/
def forwardFirst : Sheet := [(⟨0, 0⟩, "=B1"), (⟨1, 0⟩, "=C1")]

set_option maxRecDepth 2000 in
/-- The two texts of `forwardFirst` may be typed in either order. -/
theorem load_perm_forwardFirst :
    (forwardFirst.Perm forwardFirst.reverse ∧ (forwardFirst.map Prod.fst).Nodup) ∧
      ∃ doc doc', empty.load forwardFirst = .ok doc ∧ empty.load forwardFirst.reverse = .ok doc' ∧
        doc.grid = doc'.grid ∧ doc.dependents = doc'.dependents := by
  have hperm : forwardFirst.Perm forwardFirst.reverse := (List.reverse_perm _).symm
  have hcells : (forwardFirst.map Prod.fst).Nodup := by decide
  obtain ⟨hiff, hsame⟩ := load_perm hperm hcells
  have hformula : Cell.ofInput "=B1" = ⟨.formula "B1", [.cell ⟨1, 0⟩], [⟨1, 0⟩]⟩ := by cbv
  have hread : Cell.ofInput "=C1" = ⟨.formula "C1", [.cell ⟨2, 0⟩], [⟨2, 0⟩]⟩ := by cbv
  have hload : (empty.load forwardFirst).isOk = true := by
    simp only [forwardFirst, load, List.foldlM, setText, hformula, hread]
    cbv
  obtain ⟨doc, hdoc⟩ : ∃ doc, empty.load forwardFirst = .ok doc := by
    cases hres : empty.load forwardFirst with
    | ok doc => exact ⟨doc, rfl⟩
    | error e => rw [hres] at hload; cases hload
  obtain ⟨doc', hdoc'⟩ := hiff.1 ⟨doc, hdoc⟩
  exact ⟨⟨hperm, hcells⟩, doc, doc', hdoc, hdoc', (hsame doc doc' hdoc hdoc').1,
    (hsame doc doc' hdoc hdoc').2.1⟩

end Document

end SheetScript
