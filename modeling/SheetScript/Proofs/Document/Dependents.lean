import SheetScript.Document.History
import SheetScript.Proofs.Grid.Graph

/-!
# The dependents of a document

The dependents mirror the grid: a cell is among the users of another exactly when its formula reads
it, and no entry is empty (`Dependents.Mirrors`). Every change of a cell keeps it so
(`Document.mirrors_replace`).

Dropping stale values follows the users of the changed cells, so it drops the values of all cells
that depend on a changed one (`Mirrors.exists_dropped`). It follows every entry at most once;
an entry that was followed before is left out of the graph, and its users are dropped already.
-/

namespace SheetScript

open Relation

namespace Dependents

variable {dependents : Dependents} {grid : Grid} {ref user other read : CellRef}
  {refs : List CellRef}

/-- The users of a cell. -/
def usersOf (dependents : Dependents) (ref : CellRef) : Std.ExtTreeSet CellRef :=
  dependents[ref]?.getD ∅

/-- The users of a cell are those whose formulas read it, and a cell without users has no entry. -/
structure Mirrors (dependents : Dependents) (grid : Grid) : Prop where
  mem_usersOf : ∀ ref user, user ∈ dependents.usersOf ref ↔ grid.ReadBy ref user
  noneEmpty : ∀ ref : CellRef, dependents[ref]? ≠ some ∅

theorem mirrors_empty : Mirrors ∅ ∅ where
  mem_usersOf ref user := by simp [usersOf, Grid.ReadBy, Grid.precedents_eq]
  noneEmpty ref := by simp

/-! ## Adding and removing users -/

theorem getElem?_addUser (user : CellRef) (dependents : Dependents) (ref other : CellRef) :
    (addUser user dependents ref)[other]? =
      if ref = other then some ((dependents.usersOf ref).insert user) else dependents[other]? := by
  unfold addUser usersOf
  rw [Std.ExtTreeMap.getElem?_alter]
  simp only [Std.LawfulEqCmp.compare_eq_iff_eq]
  cases dependents[ref]? <;> rfl

theorem getElem?_removeUser (user : CellRef) (dependents : Dependents) (ref other : CellRef) :
    (removeUser user dependents ref)[other]? =
      if ref = other then
        if ((dependents.usersOf ref).erase user).isEmpty then none
        else some ((dependents.usersOf ref).erase user)
      else dependents[other]? := by
  unfold removeUser usersOf
  rw [Std.ExtTreeMap.getElem?_alter]
  simp only [Std.LawfulEqCmp.compare_eq_iff_eq]
  cases dependents[ref]? with
  | none => simp
  | some users => rfl

theorem mem_usersOf_addUser :
    other ∈ (addUser user dependents ref).usersOf read ↔
      other ∈ dependents.usersOf read ∨ other = user ∧ read = ref := by
  rw [usersOf, getElem?_addUser]
  by_cases href : ref = read
  · subst href
    rw [if_pos rfl, Option.getD_some, Std.ExtTreeSet.mem_insert, Std.LawfulEqCmp.compare_eq_iff_eq,
      eq_comm (a := user)]
    tauto
  · rw [if_neg href, usersOf]
    have := Ne.symm href
    tauto

theorem mem_usersOf_removeUser :
    other ∈ (removeUser user dependents ref).usersOf read ↔
      other ∈ dependents.usersOf read ∧ ¬ (other = user ∧ read = ref) := by
  rw [usersOf, getElem?_removeUser]
  by_cases href : ref = read
  · subst href
    have herase : ∀ users : Std.ExtTreeSet CellRef,
        ((if users.isEmpty then none else some users).getD ∅) = users := by
      intro users
      split_ifs with h
      · exact (Std.ExtTreeSet.isEmpty_iff.1 h).symm
      · rfl
    rw [if_pos rfl, herase, Std.ExtTreeSet.mem_erase, Ne, Std.LawfulEqCmp.compare_eq_iff_eq,
      eq_comm (a := user)]
    tauto
  · rw [if_neg href, usersOf]
    have := Ne.symm href
    tauto

theorem mem_usersOf_addUsers :
    other ∈ (dependents.addUsers user refs).usersOf read ↔
      other ∈ dependents.usersOf read ∨ other = user ∧ read ∈ refs := by
  unfold addUsers
  induction refs generalizing dependents with
  | nil => simp
  | cons ref refs ih =>
    rw [List.foldl_cons, ih, mem_usersOf_addUser, List.mem_cons]
    tauto

theorem mem_usersOf_removeUsers :
    other ∈ (dependents.removeUsers user refs).usersOf read ↔
      other ∈ dependents.usersOf read ∧ ¬ (other = user ∧ read ∈ refs) := by
  unfold removeUsers
  induction refs generalizing dependents with
  | nil => simp
  | cons ref refs ih =>
    rw [List.foldl_cons, ih, mem_usersOf_removeUser, List.mem_cons]
    tauto

theorem addUser_ne_empty (h : ∀ ref : CellRef, dependents[ref]? ≠ some ∅) (other : CellRef) :
    (addUser user dependents ref)[other]? ≠ some ∅ := by
  rw [getElem?_addUser]
  split_ifs
  · intro heq
    have hmem := Std.ExtTreeSet.mem_insert_self (t := dependents.usersOf ref) (k := user)
    rw [Option.some.inj heq] at hmem
    exact Std.ExtTreeSet.not_mem_empty hmem
  · exact h other

theorem removeUser_ne_empty (h : ∀ ref : CellRef, dependents[ref]? ≠ some ∅) (other : CellRef) :
    (removeUser user dependents ref)[other]? ≠ some ∅ := by
  rw [getElem?_removeUser]
  split_ifs with hother hempty
  · exact nofun
  · exact fun heq => hempty (Std.ExtTreeSet.isEmpty_iff.2 (Option.some.inj heq))
  · exact h other

theorem addUsers_ne_empty (h : ∀ ref : CellRef, dependents[ref]? ≠ some ∅) (other : CellRef) :
    (dependents.addUsers user refs)[other]? ≠ some ∅ := by
  unfold addUsers
  induction refs generalizing dependents with
  | nil => exact h other
  | cons ref refs ih => exact ih (addUser_ne_empty h)

theorem removeUsers_ne_empty (h : ∀ ref : CellRef, dependents[ref]? ≠ some ∅) (other : CellRef) :
    (dependents.removeUsers user refs)[other]? ≠ some ∅ := by
  unfold removeUsers
  induction refs generalizing dependents with
  | nil => exact h other
  | cons ref refs ih => exact ih (removeUser_ne_empty h)

/-! ## Dropping stale values -/

/-- From a store of values, those of the given cells were dropped and no others. -/
structure Drops (dropped : Set CellRef) (cache result : ValueCache) : Prop where
  eq_none : ∀ ref ∈ dropped, result[ref]? = none
  eq_of_notMem : ∀ ref ∉ dropped, result[ref]? = cache[ref]?

theorem Drops.insert {dropped : Set CellRef} {cache result : ValueCache}
    (h : Drops dropped (cache.erase ref) result) : Drops (insert ref dropped) cache result := by
  have hothers : ∀ other ∉ dropped,
      result[other]? = if ref = other then none else cache[other]? := by
    intro other hother
    rw [h.eq_of_notMem other hother, Std.ExtTreeMap.getElem?_erase]
    simp only [Std.LawfulEqCmp.compare_eq_iff_eq]
  refine ⟨fun other hother => ?_, fun other hother => ?_⟩
  · by_cases hmem : other ∈ dropped
    · exact h.eq_none other hmem
    · obtain rfl : other = ref := (Set.mem_insert_iff.1 hother).resolve_right hmem
      rw [hothers other hmem, if_pos rfl]
  · rw [Set.mem_insert_iff, not_or] at hother
    rw [hothers other hother.2, if_neg (Ne.symm hother.1)]

/-- What is dropped are the values of some cells: the changed ones among them, and with every cell
its users. -/
theorem exists_dropped (unfollowed : Dependents) (cache : ValueCache) (changed : List CellRef) :
    ∃ dropped : Set CellRef, Drops dropped cache (unfollowed.dropStale cache changed) ∧
      (∀ ref ∈ changed, ref ∈ dropped) ∧
      ∀ ref ∈ dropped, ∀ user ∈ unfollowed.usersOf ref, user ∈ dropped := by
  fun_induction dropStale unfollowed cache changed with
  | case1 unfollowed cache =>
    exact ⟨∅, ⟨fun _ h => h.elim, fun _ _ => rfl⟩, fun _ h => absurd h List.not_mem_nil,
      fun _ h => h.elim⟩
  | case2 unfollowed cache ref rest href ih =>
    -- The users of the first cell come to stand on the list, so all of them are dropped with it.
    -- The cell itself is not followed again, but its users are dropped already.
    obtain ⟨dropped, hdrops, hchanged, hclosed⟩ := ih
    have husers : ∀ user ∈ unfollowed.usersOf ref, user ∈ dropped := by
      intro user huser
      rw [usersOf, Std.ExtTreeMap.getElem?_eq_some_getElem href] at huser
      exact hchanged user (List.mem_append_left rest (Std.ExtTreeSet.mem_toList.2 huser))
    refine ⟨insert ref dropped, hdrops.insert, ?_, ?_⟩
    · rintro other (_ | ⟨_, hother⟩)
      · exact Or.inl rfl
      · exact Or.inr (hchanged other (List.mem_append_right _ hother))
    · intro other hother user huser
      by_cases heq : ref = other
      · exact Or.inr (husers user (heq ▸ huser))
      · refine Or.inr (hclosed other (hother.resolve_left (Ne.symm heq)) user ?_)
        rwa [usersOf, Std.ExtTreeMap.getElem?_erase, if_neg]
        rwa [Std.LawfulEqCmp.compare_eq_iff_eq]
  | case3 unfollowed cache ref rest href ih =>
    -- A cell without users, or one whose users were followed before.
    obtain ⟨dropped, hdrops, hchanged, hclosed⟩ := ih
    refine ⟨insert ref dropped, hdrops.insert, ?_, ?_⟩
    · rintro other (_ | ⟨_, hother⟩)
      · exact Or.inl rfl
      · exact Or.inr (hchanged other hother)
    · rintro other (rfl | hother) user huser
      · rw [usersOf, Std.ExtTreeMap.getElem?_eq_none href] at huser
        exact absurd huser Std.ExtTreeSet.not_mem_empty
      · exact Or.inr (hclosed other hother user huser)

/-- The values of all cells that depend on the changed one are dropped. -/
theorem Mirrors.exists_dropped (h : dependents.Mirrors grid) (cache : ValueCache) (ref : CellRef) :
    ∃ dropped : Set CellRef, Drops dropped cache (dependents.dropStale cache [ref]) ∧
      ∀ user, ReflTransGen grid.ReadBy ref user → user ∈ dropped := by
  obtain ⟨dropped, hdrops, hchanged, hclosed⟩ := Dependents.exists_dropped dependents cache [ref]
  refine ⟨dropped, hdrops, fun user huser => ?_⟩
  induction huser with
  | refl => exact hchanged ref List.mem_cons_self
  | tail _ hread ih => exact hclosed _ ih _ ((h.mem_usersOf _ _).2 hread)

/-! ## A change -/

theorem Mirrors.put (h : dependents.Mirrors grid) (ref : CellRef) (cell : Option Cell) :
    ((dependents.removeUsers ref (grid.precedents ref)).addUsers ref
      ((cell.map Cell.precedents).getD [])).Mirrors (grid.put ref cell) where
  mem_usersOf read user := by
    rw [mem_usersOf_addUsers, mem_usersOf_removeUsers, h.mem_usersOf]
    by_cases huser : user = ref
    · subst huser
      rw [Grid.ReadBy, Grid.ReadBy, Grid.precedents_put_self]
      tauto
    · rw [Grid.readBy_put_of_ne huser]
      tauto
  noneEmpty := addUsers_ne_empty (removeUsers_ne_empty h.noneEmpty)

end Dependents

open Dependents

theorem Document.mirrors_replace {doc : Document} (h : doc.dependents.Mirrors doc.grid)
    (ref : CellRef) (cell : Option Cell) :
    (doc.replace ref cell).dependents.Mirrors (doc.replace ref cell).grid := by
  cases cell with
  | none => exact h.put ref none
  | some cell => exact h.put ref (some cell)

end SheetScript
