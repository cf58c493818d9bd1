import SheetScript.Grid

/-!
# Dependents

The dependency graph of a grid, read backwards: for each cell the stored cells whose formulas read
it, its *users*. A cell without users has no entry.

`dropStale` removes from a store of computed values all that may depend on a changed cell: the
values of the cell, of its users, of their users, and so on. Each entry of the graph is followed
once and then left out, so the walk ends.
-/

namespace SheetScript

/-- For each cell that some formula reads, the cells with such formulas. -/
abbrev Dependents := Std.ExtTreeMap CellRef (Std.ExtTreeSet CellRef)

/-- Computed values of formula cells. -/
abbrev ValueCache := Std.ExtTreeMap CellRef Float

namespace Dependents

/-- The cell `user` reads `ref` from now on. -/
def addUser (user : CellRef) (dependents : Dependents) (ref : CellRef) : Dependents :=
  dependents.alter ref fun
    | some users => some (users.insert user)
    | none => some {user}

/-- The cell `user` reads `ref` no longer. -/
def removeUser (user : CellRef) (dependents : Dependents) (ref : CellRef) : Dependents :=
  dependents.alter ref fun
    | some users =>
      let users := users.erase user
      if users.isEmpty then none else some users
    | none => none

/-- The formula at `user` reads `refs` from now on. -/
def addUsers (dependents : Dependents) (user : CellRef) (refs : List CellRef) : Dependents :=
  refs.foldl (addUser user) dependents

/-- The formula at `user` reads `refs` no longer. -/
def removeUsers (dependents : Dependents) (user : CellRef) (refs : List CellRef) : Dependents :=
  refs.foldl (removeUser user) dependents

/-- Removes the values of the `changed` cells and of all that reads them, along the entries of the
graph that are still `unfollowed`. -/
def dropStale (unfollowed : Dependents) (cache : ValueCache) (changed : List CellRef) :
    ValueCache :=
  match changed with
  | [] => cache
  | ref :: rest =>
    if h : ref ∈ unfollowed then
      dropStale (unfollowed.erase ref) (cache.erase ref) (unfollowed[ref].toList ++ rest)
    else dropStale unfollowed (cache.erase ref) rest
termination_by (unfollowed.size, changed.length)
decreasing_by
  · exact Prod.Lex.left _ _ (Grid.size_erase_lt h)
  · exact Prod.Lex.right _ (Nat.lt_succ_self _)

end Dependents

end SheetScript
