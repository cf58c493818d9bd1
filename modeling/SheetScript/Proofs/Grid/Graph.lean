import Mathlib.Data.List.Chain
import Mathlib.Logic.Relation
import Mathlib.Order.WellFounded
import SheetScript.Grid

/-!
# The graph of a grid

Every stored cell reads its precedents. A cell is *grounded* when no walk from reader to read cell
goes on forever, which is accessibility in `Grid.ReadBy`; a grid is grounded when all its cells
are. A grounded grid has no cycle (`Grounded.not_cyclic`).

Storing or removing one cell changes the edges out of that cell alone. So a grounded grid stays
grounded when the changed cell does (`Grounded.put`), and the changed cell is grounded exactly when
it does not depend on itself (`Grounded.acc_put_iff`).
-/

namespace SheetScript.Grid

open Relation

variable {grid : Grid} {ref : CellRef} {cell : Option Cell}

/-! ## One cell replaced -/

@[simp] theorem put_put (grid : Grid) (ref : CellRef) (first second : Option Cell) :
    (grid.put ref first).put ref second = grid.put ref second := by
  apply Std.ExtTreeMap.ext_getElem?
  intro other
  simp only [getElem?_put]
  split <;> rfl

/-- Storing what is already there changes nothing. -/
@[simp] theorem put_getElem? (grid : Grid) (ref : CellRef) : grid.put ref grid[ref]? = grid := by
  apply Std.ExtTreeMap.ext_getElem?
  intro other
  rw [getElem?_put]
  split_ifs with h
  · rw [h]
  · rfl

@[simp] theorem precedents_put_self (grid : Grid) (ref : CellRef) (cell : Option Cell) :
    (grid.put ref cell).precedents ref = (cell.map Cell.precedents).getD [] := by
  rw [precedents_eq, getElem?_put, if_pos rfl]

theorem precedents_put_of_ne {other : CellRef} (h : other ≠ ref) (cell : Option Cell) :
    (grid.put ref cell).precedents other = grid.precedents other := by
  rw [precedents_eq, precedents_eq, getElem?_put, if_neg h]

/-! ## Reading -/

/-- The formula stored at `user` reads `ref`. -/
def ReadBy (grid : Grid) (ref user : CellRef) : Prop := ref ∈ grid.precedents user

theorem readBy_iff {user : CellRef} :
    grid.ReadBy ref user ↔ ∃ cell, grid[user]? = some cell ∧ ref ∈ cell.precedents := by
  rw [ReadBy, precedents_eq]
  cases grid[user]? <;> simp

/-- From no cell can one walk on forever from reader to read cell. -/
def Grounded (grid : Grid) : Prop := WellFounded grid.ReadBy

/-- The cell depends on itself, along one or more reads. -/
def Cyclic (grid : Grid) (ref : CellRef) : Prop := TransGen grid.ReadBy ref ref

theorem not_cyclic_of_acc (h : Acc grid.ReadBy ref) : ¬ grid.Cyclic ref := by
  intro hcyc
  have hacc := h.transGen
  induction hacc with
  | intro ref _ ih => exact ih ref hcyc (h.inv_of_transGen hcyc) hcyc

/-- From a grounded cell no walk leads to a cell that depends on itself. -/
theorem not_cyclic_of_reach {start : CellRef} (h : Acc grid.ReadBy start)
    (hreach : ReflTransGen grid.ReadBy ref start) : ¬ grid.Cyclic ref := by
  rcases reflTransGen_iff_eq_or_transGen.1 hreach with heq | hreach
  · exact heq ▸ not_cyclic_of_acc h
  · exact not_cyclic_of_acc (h.inv_of_transGen hreach)

theorem Grounded.not_cyclic (h : grid.Grounded) (ref : CellRef) : ¬ grid.Cyclic ref :=
  not_cyclic_of_acc (h.apply ref)

theorem acc_of_precedents_eq_nil (h : grid.precedents ref = []) : Acc grid.ReadBy ref := by
  refine ⟨ref, fun other hother => ?_⟩
  rw [ReadBy, h] at hother
  exact absurd hother List.not_mem_nil

theorem grounded_empty : (∅ : Grid).Grounded :=
  ⟨fun ref => acc_of_precedents_eq_nil (by rw [precedents_eq]; simp)⟩

/-! ## Grounded after a change -/

theorem readBy_put_of_ne {user : CellRef} (h : user ≠ ref) (cell : Option Cell) (read : CellRef) :
    (grid.put ref cell).ReadBy read user ↔ grid.ReadBy read user := by
  rw [ReadBy, ReadBy, precedents_put_of_ne h]

/-- A change keeps a grid grounded when it leaves the changed cell grounded. -/
theorem Grounded.put (h : grid.Grounded) (hacc : Acc (grid.put ref cell).ReadBy ref) :
    (grid.put ref cell).Grounded := by
  refine ⟨fun user => ?_⟩
  induction user using h.induction with
  | _ user ih =>
    by_cases huser : user = ref
    · exact huser ▸ hacc
    · exact ⟨user, fun read hread => ih read ((readBy_put_of_ne huser cell read).1 hread)⟩

/-- Cells that the changed cell depends on are grounded, unless it depends on itself: the walk down
from them never passes the changed cell. -/
theorem Grounded.acc_of_transGen (h : grid.Grounded) (hcyc : ¬ (grid.put ref cell).Cyclic ref)
    (other : CellRef) (hother : TransGen (grid.put ref cell).ReadBy other ref) :
    Acc (grid.put ref cell).ReadBy other := by
  induction other using h.induction with
  | _ other ih =>
    have hne : other ≠ ref := fun heq => hcyc (heq ▸ hother)
    exact ⟨other, fun read hread =>
      ih read ((readBy_put_of_ne hne cell read).1 hread) (.head hread hother)⟩

/-- A changed cell is grounded exactly when it does not depend on itself. -/
theorem Grounded.acc_put_iff (h : grid.Grounded) :
    Acc (grid.put ref cell).ReadBy ref ↔ ¬ (grid.put ref cell).Cyclic ref :=
  ⟨not_cyclic_of_acc, fun hcyc =>
    ⟨ref, fun read hread => h.acc_of_transGen hcyc read (.single hread)⟩⟩

theorem Grounded.put_of_precedents_eq_nil (h : grid.Grounded)
    (hcell : (cell.map Cell.precedents).getD [] = []) : (grid.put ref cell).Grounded :=
  h.put (acc_of_precedents_eq_nil ((precedents_put_self grid ref cell).trans hcell))

/-! ## Paths -/

/-- A walk that starts at `start`, goes on from reader to read cell and ends when it comes back to
a cell it has passed. No other cell is passed twice. -/
structure Lasso (grid : Grid) (start : CellRef) (path : List CellRef) : Prop where
  starts : path.head? = some start
  walks : path.IsChain fun user read => grid.ReadBy read user
  closes : ∃ passed last, path = passed ++ [last] ∧ last ∈ passed ∧ passed.Nodup

theorem transGen_of_isChain {first last : CellRef} (between : List CellRef)
    (h : (first :: between ++ [last]).IsChain fun user read => grid.ReadBy read user) :
    TransGen grid.ReadBy last first := by
  induction between generalizing first with
  | nil => exact .single h.rel
  | cons next between ih =>
    obtain ⟨hread, hrest⟩ := List.isChain_cons_cons.1 h
    exact .tail (ih hrest) hread

/-- A closed walk leads to a cell that depends on itself. -/
theorem Lasso.exists_cyclic {start : CellRef} {path : List CellRef} (h : grid.Lasso start path) :
    ∃ ref, ReflTransGen grid.ReadBy ref start ∧ grid.Cyclic ref := by
  obtain ⟨passed, last, rfl, hmem, -⟩ := h.closes
  obtain ⟨front, back, rfl⟩ := List.append_of_mem hmem
  have hwalk := h.walks
  rw [List.append_assoc] at hwalk
  have hcyc : grid.Cyclic last := transGen_of_isChain back hwalk.right_of_append
  refine ⟨last, ?_, hcyc⟩
  cases front with
  | nil =>
    obtain rfl : last = start := by simpa using h.starts
    exact .refl
  | cons first front =>
    obtain rfl : first = start := by simpa using h.starts
    have hfront : ((first :: front ++ [last]) ++ (back ++ [last])).IsChain
        fun user read => grid.ReadBy read user := by simpa using hwalk
    exact (transGen_of_isChain front hfront.left_of_append).to_reflTransGen

theorem not_lasso_of_acc (h : Acc grid.ReadBy ref) (path : List CellRef) :
    ¬ grid.Lasso ref path := by
  intro hlasso
  obtain ⟨other, hreach, hcyc⟩ := hlasso.exists_cyclic
  exact not_cyclic_of_reach h hreach hcyc

/-- A walk that starts at a cell, comes back to it and passes no cell twice on the way. -/
structure Circuit (grid : Grid) (ref : CellRef) (path : List CellRef) : Prop where
  walks : path.IsChain fun user read => grid.ReadBy read user
  closes : ∃ between, path = ref :: between ++ [ref] ∧ (ref :: between).Nodup

/-- In a grounded grid with one cell changed, a walk from that cell that closes comes back to the
cell itself: a loop that does not pass the changed cell was there before the change. -/
theorem Grounded.circuit_of_lasso (h : grid.Grounded) {path : List CellRef}
    (hlasso : (grid.put ref cell).Lasso ref path) : (grid.put ref cell).Circuit ref path := by
  obtain ⟨passed, last, hpath, hmem, hnodup⟩ := hlasso.closes
  have hwalks := hlasso.walks
  have hstarts := hlasso.starts
  obtain ⟨front, back, hpassed⟩ := List.append_of_mem hmem
  subst hpath hpassed
  cases front with
  | nil =>
    have hlast : last = ref := by simpa using hstarts
    subst hlast
    exact ⟨hwalks, back, rfl, hnodup⟩
  | cons first front =>
    -- The walk closes at another cell than the first. That loop does not pass the changed cell, so
    -- it was there before the change.
    exfalso
    have hfirst : first = ref := by simpa using hstarts
    subst hfirst
    have hloop : (last :: back ++ [last]).IsChain
        fun user read => (grid.put first cell).ReadBy read user := by
      rw [List.append_assoc] at hwalks
      exact hwalks.right_of_append
    have hne : ∀ other ∈ last :: back ++ [last], other ≠ first := by
      intro other hother heq
      have hback : other ∈ last :: back := by
        rcases List.mem_append.1 hother with hother | hother
        · exact hother
        · exact List.mem_singleton.1 hother ▸ List.mem_cons_self
      exact (List.nodup_cons.1 hnodup).1 (List.mem_append_right front (heq ▸ hback))
    have hbefore : (last :: back ++ [last]).IsChain fun user read => grid.ReadBy read user :=
      hloop.imp_of_mem_imp fun user read huser _ hread =>
        (readBy_put_of_ne (hne user huser) cell read).1 hread
    exact h.not_cyclic last (transGen_of_isChain back hbefore)

end SheetScript.Grid
