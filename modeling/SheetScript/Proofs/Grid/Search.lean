import Mathlib.Data.List.Nodup
import SheetScript.Proofs.Grid.Graph

/-!
# The search for cycles

`findCycle` answers nothing exactly for a grounded start (`findCycle_eq_none_iff`), and what it
answers otherwise is a walk from the start that closes (`lasso_of_findCycle`). A grid has finitely
many cells, so the start is grounded exactly when no walk from it leads to a cell that depends on
itself, and `findCycle` decides that over any grid (`findCycle_decides`).

The search keeps one invariant: the cells that are no longer unopened are the cells of the path,
each passed once. So a stored cell that is met again and is not cleared lies on the path.
-/

namespace SheetScript.Grid

open Relation

variable {grid unopened : Grid} {path refs : List CellRef} {cleared : Std.ExtTreeSet CellRef}
  {start ref : CellRef}

/-- The unopened cells are the stored cells off the path, and the path passes each cell once. -/
structure Trail (grid unopened : Grid) (path : List CellRef) : Prop where
  agrees : ∀ ref, unopened[ref]? = if ref ∈ path then none else grid[ref]?
  nodup : path.Nodup

theorem trail_nil (grid : Grid) : Trail grid grid [] := ⟨fun _ => by simp, List.nodup_nil⟩

theorem Trail.not_mem_path (h : Trail grid unopened path) (href : ref ∈ unopened) :
    ref ∉ path := by
  intro hpath
  rw [Std.ExtTreeMap.mem_iff_isSome_getElem?, h.agrees, if_pos hpath] at href
  cases href

theorem Trail.mem_path (h : Trail grid unopened path) (href : ref ∈ grid)
    (hopened : ref ∉ unopened) : ref ∈ path := by
  by_contra hpath
  refine hopened ?_
  rw [Std.ExtTreeMap.mem_iff_isSome_getElem?, h.agrees, if_neg hpath]
  exact Std.ExtTreeMap.mem_iff_isSome_getElem?.1 href

/-- Entering an unopened cell keeps the invariant. -/
theorem Trail.open (h : Trail grid unopened path) (href : ref ∈ unopened) :
    Trail grid (unopened.erase ref) (ref :: path) := by
  refine ⟨fun other => ?_, List.nodup_cons.2 ⟨h.not_mem_path href, h.nodup⟩⟩
  rw [Std.ExtTreeMap.getElem?_erase, h.agrees]
  by_cases hother : ref = other
  · simp [hother]
  · simp [hother, Ne.symm hother]

theorem Trail.precedents_eq (h : Trail grid unopened path) (href : ref ∈ unopened) :
    unopened[ref].precedents = grid.precedents ref := by
  have := h.agrees ref
  rw [if_neg (h.not_mem_path href), Std.ExtTreeMap.getElem?_eq_some_getElem href] at this
  rw [Grid.precedents_eq, ← this]
  rfl

/-! ## What a search answers -/

/-- All of these cells are grounded. -/
def AllGrounded (grid : Grid) (cleared : Std.ExtTreeSet CellRef) : Prop :=
  ∀ ref ∈ cleared, Acc grid.ReadBy ref

/-- A search of `refs` on a walk from `start` either clears grounded cells, and `refs` are
grounded, or answers a closed walk. -/
def Searched (grid : Grid) (start : CellRef) (refs : List CellRef) :
    Except (List CellRef) (Std.ExtTreeSet CellRef) → Prop
  | .ok cleared => grid.AllGrounded cleared ∧ ∀ ref ∈ refs, Acc grid.ReadBy ref
  | .error path => grid.Lasso start path

theorem searched_searchAll (hcleared : grid.AllGrounded cleared)
    (hcell : ∀ ref ∈ refs, ∀ cleared, grid.AllGrounded cleared →
      grid.Searched start [ref] (searchCell grid unopened path cleared ref)) :
    grid.Searched start refs (searchAll grid unopened path cleared refs) := by
  induction refs generalizing cleared with
  | nil =>
    rw [searchAll]
    exact ⟨hcleared, fun _ h => absurd h List.not_mem_nil⟩
  | cons ref rest ih =>
    have hfirst := hcell ref List.mem_cons_self cleared hcleared
    rw [searchAll]
    cases hres : searchCell grid unopened path cleared ref with
    | error cycle =>
      rw [hres] at hfirst
      exact hfirst
    | ok cleared' =>
      rw [hres] at hfirst
      obtain ⟨hcleared', hacc⟩ := hfirst
      have hrest := ih hcleared' fun other h => hcell other (List.mem_cons_of_mem ref h)
      dsimp only
      cases hres' : searchAll grid unopened path cleared' rest with
      | error cycle =>
        rw [hres'] at hrest
        exact hrest
      | ok cleared'' =>
        rw [hres'] at hrest
        refine ⟨hrest.1, fun other hother => ?_⟩
        rcases List.mem_cons.1 hother with rfl | hother
        · exact hacc _ List.mem_cons_self
        · exact hrest.2 other hother

/-- Coming back to a cell of the path closes the walk. -/
theorem Trail.lasso (h : Trail grid unopened path) (href : ref ∈ path)
    (hwalk : (ref :: path).IsChain grid.ReadBy) (hstart : (ref :: path).getLast? = some start) :
    grid.Lasso start (ref :: path).reverse where
  starts := by rw [List.head?_reverse, hstart]
  walks := List.isChain_reverse.2 hwalk
  closes := ⟨path.reverse, ref, List.reverse_cons, List.mem_reverse.2 href,
    List.nodup_reverse.2 h.nodup⟩

theorem searched_searchCell (htrail : Trail grid unopened path)
    (hwalk : (ref :: path).IsChain grid.ReadBy) (hstart : (ref :: path).getLast? = some start)
    (hcleared : grid.AllGrounded cleared) :
    grid.Searched start [ref] (searchCell grid unopened path cleared ref) := by
  -- Strong induction on the number of cells that are still unopened.
  induction hsize : unopened.size using Nat.strong_induction_on
    generalizing unopened path cleared ref with
  | _ size ih =>
    rw [searchCell]
    split_ifs with hdone hopen hstored
    · exact ⟨hcleared, fun other hother => List.mem_singleton.1 hother ▸ hcleared ref hdone⟩
    · have hall : grid.Searched start unopened[ref].precedents
          (searchAll grid (unopened.erase ref) (ref :: path) cleared unopened[ref].precedents) := by
        refine searched_searchAll hcleared fun other hother cleared' hcleared' => ?_
        rw [htrail.precedents_eq hopen] at hother
        refine ih _ (hsize ▸ size_erase_lt hopen) (htrail.open hopen) ?_ ?_ hcleared' rfl
        · exact List.isChain_cons_cons.2 ⟨hother, hwalk⟩
        · rw [List.getLast?_cons_cons, hstart]
      cases hres : searchAll grid (unopened.erase ref) (ref :: path) cleared
          unopened[ref].precedents with
      | error cycle =>
        rw [hres] at hall
        exact hall
      | ok cleared' =>
        rw [hres] at hall
        have hacc : Acc grid.ReadBy ref :=
          ⟨ref, fun other hother => hall.2 other (htrail.precedents_eq hopen ▸ hother)⟩
        refine ⟨fun other hother => ?_, fun other hother => List.mem_singleton.1 hother ▸ hacc⟩
        rcases Std.ExtTreeSet.mem_insert.1 hother with heq | hother
        · exact Std.LawfulEqOrd.eq_of_compare heq ▸ hacc
        · exact hall.1 other hother
    · exact htrail.lasso (htrail.mem_path hstored hopen) hwalk hstart
    · have hacc : Acc grid.ReadBy ref := by
        apply acc_of_precedents_eq_nil
        rw [precedents_eq, Std.ExtTreeMap.getElem?_eq_none hstored]
        rfl
      exact ⟨hcleared, fun other hother => List.mem_singleton.1 hother ▸ hacc⟩

theorem searched_findCycle (grid : Grid) (start : CellRef) :
    grid.Searched start [start] (searchCell grid grid [] ∅ start) :=
  searched_searchCell (trail_nil grid) (List.isChain_singleton start) rfl
    fun _ h => absurd h Std.ExtTreeSet.not_mem_empty

theorem lasso_of_findCycle (h : findCycle grid start = some path) : grid.Lasso start path := by
  have hsearch := searched_findCycle grid start
  unfold findCycle at h
  split at h
  next => cases h
  next cycle hres =>
    obtain rfl := Option.some.inj h
    rw [hres] at hsearch
    exact hsearch

/-- The search finds nothing exactly from a grounded cell. -/
theorem findCycle_eq_none_iff : findCycle grid start = none ↔ Acc grid.ReadBy start := by
  constructor
  · intro h
    have hsearch := searched_findCycle grid start
    unfold findCycle at h
    split at h
    next cleared hres =>
      rw [hres] at hsearch
      exact hsearch.2 start List.mem_cons_self
    next => cases h
  · intro hacc
    cases h : findCycle grid start with
    | none => rfl
    | some path => exact absurd (lasso_of_findCycle h) (not_lasso_of_acc hacc path)

/-- **The search decides whether a cycle can be reached.** Over any grid, whatever its cells read,
`findCycle` answers a path exactly when some walk from the start leads to a cell that depends on
itself. The path is a walk from the start that ends at the first cell it comes back to. -/
theorem findCycle_decides (grid : Grid) (start : CellRef) :
    ((∃ path, findCycle grid start = some path) ↔
      ∃ ref, ReflTransGen grid.ReadBy ref start ∧ grid.Cyclic ref) ∧
    ∀ path, findCycle grid start = some path → grid.Lasso start path := by
  refine ⟨⟨?_, ?_⟩, fun path => lasso_of_findCycle⟩
  · intro h
    obtain ⟨path, hpath⟩ := h
    exact (lasso_of_findCycle hpath).exists_cyclic
  · intro h
    obtain ⟨ref, hreach, hcyc⟩ := h
    cases hres : findCycle grid start with
    | some path => exact ⟨path, rfl⟩
    | none => exact absurd hcyc (not_cyclic_of_reach (findCycle_eq_none_iff.1 hres) hreach)

/-- The first cell reads a missing cell and the second one, which reads itself. -/
def loopBehind : Grid :=
  (put ∅ ⟨0, 0⟩ (some { content := .formula "Z9+B1", precedents := [⟨25, 8⟩, ⟨1, 0⟩] })).put
    ⟨1, 0⟩ (some { content := .formula "B1", precedents := [⟨1, 0⟩] })

/-- The loop behind the first cell is found, and not reported as a loop of the first cell. -/
theorem findCycle_decides_loopBehind :
    ∃ path, findCycle loopBehind ⟨0, 0⟩ = some path ∧ loopBehind.Lasso ⟨0, 0⟩ path := by
  have hfirst : loopBehind.ReadBy ⟨1, 0⟩ ⟨0, 0⟩ := by
    rw [ReadBy, loopBehind, precedents_put_of_ne (by decide), precedents_put_self]
    simp
  have hsecond : loopBehind.ReadBy ⟨1, 0⟩ ⟨1, 0⟩ := by
    rw [ReadBy, loopBehind, precedents_put_self]
    simp
  obtain ⟨hfound, hlasso⟩ := findCycle_decides loopBehind ⟨0, 0⟩
  obtain ⟨path, hpath⟩ := hfound.2 ⟨⟨1, 0⟩, .single hfirst, .single hsecond⟩
  exact ⟨path, hpath, hlasso path hpath⟩

end SheetScript.Grid
