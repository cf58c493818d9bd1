import Mathlib
import SheetScript.Script.Registry

/-!
# Registries answer like maps

Whatever the hash function, even one that gives all names the same hash, a registry answers every
row of operations as a plain map from names to values does (`Registry.answers_eq_map`).

The table stays strictly sorted by hash and name. In a sorted table a search may stop at the first
row behind the key, so that it finds the rows with the key and no others
(`Entry.find?_eq_some_iff`). The same invariant makes a search by halving right
(`Entry.bisect_eq_find?`), and a registration is the same as adding a row and sorting
(`Entry.put_eq_mergeSort`). Membership in the table then says all: its rows are the names of the
map, with their hashes and values (`Registry.Represents`).
-/

namespace SheetScript.Script

variable {α : Type} {hash : UInt64} {name : String} {value : α} {entry : Entry α}
  {table : List (Entry α)}

namespace Entry

/-! ## The order of rows -/

/-- The row has this hash and this name. -/
def HasKey (hash : UInt64) (name : String) (entry : Entry α) : Prop :=
  entry.hash = hash ∧ entry.name = name

/-- The first row stands before the second one: it has the lower hash, or the same hash and the
lower name. -/
def Before (first second : Entry α) : Prop := compareKey first.hash first.name second = .lt

/-- The order of keys in a table. -/
def compareKeys : UInt64 × String → UInt64 × String → Ordering :=
  compareLex (compareOn Prod.fst) (compareOn Prod.snd)

instance : Std.TransCmp compareKeys :=
  inferInstanceAs (Std.TransCmp (compareLex (compareOn Prod.fst) (compareOn Prod.snd)))

theorem compareKey_eq (hash : UInt64) (name : String) (entry : Entry α) :
    compareKey hash name entry = compareKeys (hash, name) (entry.hash, entry.name) := rfl

theorem compareKey_eq_eq_iff : compareKey hash name entry = .eq ↔ entry.HasKey hash name := by
  rw [compareKey, Ordering.then_eq_eq, Std.compare_eq_iff_eq, Std.compare_eq_iff_eq, HasKey,
    eq_comm (a := hash), eq_comm (a := name)]

theorem compareKey_eq_gt_iff :
    compareKey hash name entry = .gt ↔ entry.Before ⟨hash, name, value⟩ := by
  rw [Before, compareKey_eq, compareKey_eq]
  exact Std.OrientedCmp.gt_iff_lt

theorem Before.trans {a b c : Entry α} (hab : a.Before b) (hbc : b.Before c) : a.Before c := by
  rw [Before, compareKey_eq] at hab hbc ⊢
  exact Std.TransCmp.lt_trans hab hbc

theorem Before.not_hasKey {a b : Entry α} (h : a.Before b) : ¬ b.HasKey a.hash a.name := by
  intro hkey
  rw [Before, compareKey_eq_eq_iff.2 hkey] at h
  cases h

theorem Before.asymm {a b : Entry α} (hab : a.Before b) : ¬ b.Before a :=
  fun hba => (hab.trans hba).not_hasKey ⟨rfl, rfl⟩

/-! ## Sorted tables -/

/-- Every row of the table stands before all rows behind it. -/
def SortedTable (table : List (Entry α)) : Prop := table.Pairwise Before

/-- How a key can compare with the first row: it is in no row, in that row alone, or not in it. -/
theorem compareKey_cases (h : SortedTable (entry :: table)) (hash : UInt64) (name : String) :
    (compareKey hash name entry = .lt ∧ ∀ row ∈ entry :: table, ¬ row.HasKey hash name) ∨
    (compareKey hash name entry = .eq ∧ entry.HasKey hash name ∧
      ∀ row ∈ table, ¬ row.HasKey hash name) ∨
    (compareKey hash name entry = .gt ∧ ¬ entry.HasKey hash name) := by
  cases hcmp : compareKey hash name entry with
  | lt =>
    have hbefore : Before ⟨hash, name, entry.value⟩ entry := hcmp
    refine .inl ⟨rfl, ?_⟩
    rintro row (_ | ⟨_, hrow⟩)
    · exact hbefore.not_hasKey
    · exact (hbefore.trans (List.rel_of_pairwise_cons h hrow)).not_hasKey
  | eq =>
    obtain ⟨rfl, rfl⟩ := compareKey_eq_eq_iff.1 hcmp
    exact .inr (.inl ⟨rfl, ⟨rfl, rfl⟩,
      fun row hrow => (List.rel_of_pairwise_cons h hrow).not_hasKey⟩)
  | gt =>
    refine .inr (.inr ⟨rfl, fun hkey => ?_⟩)
    rw [compareKey_eq_eq_iff.2 hkey] at hcmp
    cases hcmp

theorem find?_eq_some_iff (h : SortedTable table) :
    find? hash name table = some value ↔
      ∃ row ∈ table, row.HasKey hash name ∧ row.value = value := by
  induction table with
  | nil => simp [find?]
  | cons entry rest ih =>
    have hrest := ih h.of_cons
    rcases compareKey_cases h hash name with ⟨hcmp, hnone⟩ | ⟨hcmp, hkey, hnone⟩ | ⟨hcmp, hkey⟩
    · simp only [find?, hcmp]
      grind
    · simp only [find?, hcmp]
      grind
    · simp only [find?, hcmp]
      grind

theorem mem_put (h : SortedTable table) {row : Entry α} :
    row ∈ put hash name value table ↔
      row = ⟨hash, name, value⟩ ∨ row ∈ table ∧ ¬ row.HasKey hash name := by
  induction table with
  | nil => simp [put]
  | cons entry rest ih =>
    have hrest := ih h.of_cons
    rcases compareKey_cases h hash name with ⟨hcmp, hnone⟩ | ⟨hcmp, hkey, hnone⟩ | ⟨hcmp, hkey⟩
    · simp only [put, hcmp]
      grind
    · obtain ⟨rfl, rfl⟩ := hkey
      simp only [put, hcmp]
      grind [HasKey]
    · simp only [put, hcmp]
      grind

/-- The value that was put under a key is found there. The table need not be sorted for this. -/
theorem find?_put_self (hash : UInt64) (name : String) (value : α) (table : List (Entry α)) :
    find? hash name (put hash name value table) = some value := by
  have hself : ∀ v : α, compareKey hash name ⟨hash, name, v⟩ = .eq :=
    fun v => compareKey_eq_eq_iff.2 ⟨rfl, rfl⟩
  induction table with
  | nil => simp only [put, find?, hself]
  | cons entry rest ih =>
    cases hcmp : compareKey hash name entry with
    | lt => simp only [put, hcmp, find?, hself]
    | eq =>
      have hsame : compareKey hash name { entry with value } = .eq := hcmp
      simp only [put, hcmp, find?, hsame]
    | gt => simp only [put, hcmp, find?, ih]

theorem find?_put_of_ne {hash' : UInt64} {name' : String} (h : name' ≠ name)
    (table : List (Entry α)) :
    find? hash' name' (put hash name value table) = find? hash' name' table := by
  have hne : ∀ row : Entry α, row.name = name → compareKey hash' name' row ≠ .eq :=
    fun row hrow hkey => h ((compareKey_eq_eq_iff.1 hkey).2.symm.trans hrow)
  induction table with
  | nil =>
    simp only [put, find?]
    split
    next => rfl
    next hkey => exact absurd hkey (hne _ rfl)
    next => rfl
  | cons entry rest ih =>
    cases hcmp : compareKey hash name entry with
    | lt =>
      simp only [put, hcmp]
      rw [find?]
      split
      next hbefore =>
        -- What stands before the new row stands before the next one, too.
        have hlt : compareKey hash' name' entry = .lt :=
          Before.trans (a := ⟨hash', name', value⟩) (b := ⟨hash, name, value⟩) hbefore hcmp
        rw [find?, hlt]
      next hkey => exact absurd hkey (hne _ rfl)
      next => rfl
    | eq =>
      obtain ⟨-, rfl⟩ := compareKey_eq_eq_iff.1 hcmp
      have hsame : compareKey hash' name' { entry with value } = compareKey hash' name' entry := rfl
      simp only [put, hcmp, find?, hsame]
      split
      next => rfl
      next hkey => exact absurd hkey (hne entry rfl)
      next => rfl
    | gt => simp only [put, hcmp, find?, ih]

theorem mem_erase (h : SortedTable table) {row : Entry α} :
    row ∈ erase hash name table ↔ row ∈ table ∧ ¬ row.HasKey hash name := by
  induction table with
  | nil => simp [erase]
  | cons entry rest ih =>
    have hrest := ih h.of_cons
    rcases compareKey_cases h hash name with ⟨hcmp, hnone⟩ | ⟨hcmp, hkey, hnone⟩ | ⟨hcmp, hkey⟩
    · simp only [erase, hcmp]
      grind
    · simp only [erase, hcmp]
      grind
    · simp only [erase, hcmp]
      grind

theorem sortedTable_put (h : SortedTable table) (hash : UInt64) (name : String) (value : α) :
    SortedTable (put hash name value table) := by
  induction table with
  | nil => exact List.pairwise_singleton _ _
  | cons entry rest ih =>
    have hfirst := (List.pairwise_cons.1 h).1
    cases hcmp : compareKey hash name entry with
    | lt =>
      simp only [put, hcmp]
      have hbefore : Before ⟨hash, name, value⟩ entry := hcmp
      refine h.cons ?_
      rintro row (_ | ⟨_, hrow⟩)
      · exact hbefore
      · exact hbefore.trans (hfirst row hrow)
    | eq =>
      simp only [put, hcmp]
      exact h.of_cons.cons hfirst
    | gt =>
      simp only [put, hcmp]
      refine (ih h.of_cons).cons fun row hrow => ?_
      rcases (mem_put h.of_cons).1 hrow with rfl | ⟨hrow, -⟩
      · exact compareKey_eq_gt_iff.1 hcmp
      · exact hfirst row hrow

theorem erase_sublist (hash : UInt64) (name : String) (table : List (Entry α)) :
    (erase hash name table).Sublist table := by
  induction table with
  | nil => exact .refl _
  | cons entry rest ih =>
    unfold erase
    split
    · exact .refl _
    · exact List.sublist_cons_self _ _
    · exact ih.cons_cons _

theorem SortedTable.nodup (h : SortedTable table) : table.Nodup :=
  h.imp (by rintro row _ hbefore rfl; exact hbefore.asymm hbefore)

/-! ## Halving and sorting -/

/-- The value under a key, by a search that halves the table. -/
def bisect (hash : UInt64) (name : String) (table : List (Entry α)) : Option α :=
  match _h : table.drop (table.length / 2) with
  | [] => none
  | entry :: above =>
    match compareKey hash name entry with
    | .lt => bisect hash name (table.take (table.length / 2))
    | .eq => some entry.value
    | .gt => bisect hash name above
termination_by table.length
decreasing_by
  all_goals
    have := congrArg List.length _h
    simp only [List.length_drop, List.length_cons, List.length_take] at this ⊢
    omega

/-- To compare a key with any one row tells on which side of it the key is to be found. -/
theorem find?_append_cons {below above : List (Entry α)}
    (h : SortedTable (below ++ entry :: above)) (hash : UInt64) (name : String) :
    find? hash name (below ++ entry :: above) =
      match compareKey hash name entry with
      | .lt => find? hash name below
      | .eq => some entry.value
      | .gt => find? hash name above := by
  obtain ⟨hbelow, habove, hacross⟩ := List.pairwise_append.1 h
  ext value
  rw [find?_eq_some_iff h]
  -- The key comes before the row, is its key, or comes behind it; the rows on the other side do not
  -- have it.
  rcases compareKey_cases habove hash name with ⟨hcmp, hnone⟩ | ⟨hcmp, hkey, hnone⟩ | ⟨hcmp, hkey⟩
  · simp only [hcmp]
    rw [find?_eq_some_iff hbelow]
    grind
  · have hnone' : ∀ row ∈ below, ¬ row.HasKey hash name := by
      obtain ⟨rfl, rfl⟩ := hkey
      intro row hrow hkey
      exact (hacross row hrow entry List.mem_cons_self).not_hasKey ⟨hkey.1.symm, hkey.2.symm⟩
    simp only [hcmp]
    grind
  · have hnone' : ∀ row ∈ below, ¬ row.HasKey hash name := by
      intro row hrow hkey
      have hentry : entry.Before ⟨hash, name, value⟩ := compareKey_eq_gt_iff.1 hcmp
      exact ((hacross row hrow entry List.mem_cons_self).trans hentry).not_hasKey
        ⟨hkey.1.symm, hkey.2.symm⟩
    simp only [hcmp]
    rw [find?_eq_some_iff habove.of_cons]
    grind

theorem find?_of_drop_eq_cons (h : SortedTable table) {n : Nat} {above : List (Entry α)}
    (hdrop : table.drop n = entry :: above) (hash : UInt64) (name : String) :
    SortedTable (table.take n) ∧ SortedTable above ∧ find? hash name table =
      match compareKey hash name entry with
      | .lt => find? hash name (table.take n)
      | .eq => some entry.value
      | .gt => find? hash name above := by
  have htable : table.take n ++ entry :: above = table := by rw [← hdrop, List.take_append_drop]
  have hsorted := h
  rw [← htable] at hsorted
  obtain ⟨hbelow, habove, -⟩ := List.pairwise_append.1 hsorted
  refine ⟨hbelow, habove.of_cons, ?_⟩
  rw [← find?_append_cons hsorted, htable]

theorem bisect_eq_find? (h : SortedTable table) (hash : UInt64) (name : String) :
    bisect hash name table = find? hash name table := by
  fun_induction bisect hash name table with
  | case1 table hdrop =>
    have hlength := congrArg List.length hdrop
    rw [List.length_drop, List.length_nil] at hlength
    obtain rfl : table = [] := List.length_eq_zero_iff.1 (by omega)
    rfl
  | case2 table entry above hdrop hcmp ih =>
    obtain ⟨hbelow, -, hfind⟩ := find?_of_drop_eq_cons h hdrop hash name
    rw [ih hbelow, hfind, hcmp]
  | case3 table entry above hdrop hcmp =>
    obtain ⟨-, -, hfind⟩ := find?_of_drop_eq_cons h hdrop hash name
    rw [hfind, hcmp]
  | case4 table entry above hdrop hcmp ih =>
    obtain ⟨-, habove, hfind⟩ := find?_of_drop_eq_cons h hdrop hash name
    rw [ih habove, hfind, hcmp]

instance (hash : UInt64) (name : String) (entry : Entry α) : Decidable (entry.HasKey hash name) :=
  inferInstanceAs (Decidable (entry.hash = hash ∧ entry.name = name))

/-- The first row does not stand behind the second one. -/
def notBehind (first second : Entry α) : Bool :=
  (compareKey first.hash first.name second).isLE

theorem notBehind_trans (a b c : Entry α) (hab : notBehind a b = true)
    (hbc : notBehind b c = true) : notBehind a c = true := by
  rw [notBehind, compareKey_eq] at hab hbc ⊢
  exact Std.TransCmp.isLE_trans hab hbc

theorem notBehind_total (a b : Entry α) : (notBehind a b || notBehind b a) = true := by
  rw [Bool.or_eq_true, or_iff_not_imp_left, notBehind, notBehind, compareKey_eq, compareKey_eq]
  exact fun h => Ordering.isLE_of_eq_lt (Std.OrientedCmp.lt_of_not_isLE h)

theorem SortedTable.eq_of_notBehind (h : SortedTable table) {a b : Entry α} (ha : a ∈ table)
    (hb : b ∈ table) (hab : notBehind a b = true) (hba : notBehind b a = true) : a = b := by
  by_contra hne
  have : Std.Symm fun a b : Entry α => a.Before b ∨ b.Before a := ⟨fun _ _ => Or.symm⟩
  have hpair : table.Pairwise fun a b => a.Before b ∨ b.Before a := h.imp Or.inl
  rcases hpair.forall ha hb hne with hbefore | hbefore
  · simp [notBehind, compareKey_eq_gt_iff.2 hbefore] at hba
  · simp [notBehind, compareKey_eq_gt_iff.2 hbefore] at hab

/-- The rows with other keys, and a new row at the end. -/
def pushed (hash : UInt64) (name : String) (value : α) (table : List (Entry α)) :
    List (Entry α) :=
  table.filter (fun row => ¬ row.HasKey hash name) ++ [⟨hash, name, value⟩]

theorem perm_put_pushed (h : SortedTable table) (hash : UInt64) (name : String) (value : α) :
    (put hash name value table).Perm (pushed hash name value table) := by
  have hnodup : (pushed hash name value table).Nodup := by
    refine List.nodup_append.2 ⟨h.nodup.filter _, List.nodup_singleton _, ?_⟩
    rintro row hrow new hnew rfl
    rw [List.mem_singleton.1 hnew] at hrow
    simp [HasKey] at hrow
  rw [List.perm_ext_iff_of_nodup (sortedTable_put h hash name value).nodup hnodup]
  intro row
  simp only [mem_put h, pushed, List.mem_append, List.mem_filter, List.mem_singleton,
    decide_eq_true_eq]
  exact or_comm

/-- To put a row into its place is to add it to the rows with other keys and to sort them. -/
theorem put_eq_mergeSort (h : SortedTable table) (hash : UInt64) (name : String) (value : α) :
    put hash name value table = (pushed hash name value table).mergeSort notBehind := by
  have hput := sortedTable_put h hash name value
  have hperm := (perm_put_pushed h hash name value).trans (List.mergeSort_perm _ notBehind).symm
  refine hperm.eq_of_pairwise (fun a b ha hb => hput.eq_of_notBehind ha (hperm.symm.subset hb)) ?_
    (List.pairwise_mergeSort notBehind_trans notBehind_total _)
  exact hput.imp Ordering.isLE_of_eq_lt

end Entry

namespace Registry

variable {hash : String → UInt64} {registry : Registry hash α} {map : Std.ExtTreeMap String α}

theorem get?_insert (registry : Registry hash α) (name : String) (value : α) (other : String) :
    (registry.insert name value).get? other =
      if other = name then some value else registry.get? other := by
  split
  next h =>
    subst h
    exact Entry.find?_put_self _ _ _ _
  next h => exact Entry.find?_put_of_ne h _

/-- The table is sorted, and its rows are the names of the map with their hashes and values. -/
structure Represents (registry : Registry hash α) (map : Std.ExtTreeMap String α) : Prop where
  sorted : Entry.SortedTable registry.table
  mem_iff : ∀ row, row ∈ registry.table ↔
    row.hash = hash row.name ∧ map[row.name]? = some row.value

theorem represents_empty : (empty : Registry hash α).Represents ∅ where
  sorted := .nil
  mem_iff row := by simp [empty]

theorem Represents.insert (h : registry.Represents map) (name : String) (value : α) :
    (registry.insert name value).Represents (map.insert name value) where
  sorted := Entry.sortedTable_put h.sorted _ name value
  mem_iff row := by
    obtain ⟨hash', name', value'⟩ := row
    rw [Registry.insert, Entry.mem_put h.sorted, h.mem_iff, Std.ExtTreeMap.getElem?_insert]
    simp only [Entry.HasKey, Entry.mk.injEq, Std.LawfulEqCmp.compare_eq_iff_eq]
    grind

theorem Represents.remove (h : registry.Represents map) (name : String) :
    (registry.remove name).2.Represents (map.erase name) where
  sorted := h.sorted.sublist (Entry.erase_sublist _ name _)
  mem_iff row := by
    rw [Registry.remove, Entry.mem_erase h.sorted, h.mem_iff, Std.ExtTreeMap.getElem?_erase]
    simp only [Entry.HasKey, Std.LawfulEqCmp.compare_eq_iff_eq]
    grind

theorem Represents.get?_eq (h : registry.Represents map) (name : String) :
    registry.get? name = map[name]? := by
  ext value
  rw [get?, Entry.find?_eq_some_iff h.sorted]
  simp only [h.mem_iff, Entry.HasKey]
  constructor
  · rintro ⟨row, ⟨-, hvalue⟩, ⟨-, rfl⟩, rfl⟩
    exact hvalue
  · intro hvalue
    exact ⟨⟨hash name, name, value⟩, ⟨rfl, hvalue⟩, ⟨rfl, rfl⟩, rfl⟩

theorem Represents.contains_eq (h : registry.Represents map) (name : String) :
    registry.contains name = map.contains name := by
  rw [contains, h.get?_eq, Std.ExtTreeMap.contains_eq_isSome_getElem?]

/-- Rows with the same name would have the same hash, so that none could stand before the other. -/
theorem Represents.nodup_names (h : registry.Represents map) :
    (registry.table.map Entry.name).Nodup := by
  refine List.pairwise_map.2 (h.sorted.imp_of_mem ?_)
  intro a b ha hb hbefore heq
  have hhash : b.hash = a.hash := by rw [((h.mem_iff a).1 ha).1, ((h.mem_iff b).1 hb).1, heq]
  exact hbefore.not_hasKey ⟨hhash, heq.symm⟩

theorem Represents.perm_keys (h : registry.Represents map) :
    (registry.table.map Entry.name).Perm map.keys := by
  rw [List.perm_ext_iff_of_nodup h.nodup_names Std.ExtTreeMap.nodup_keys]
  intro name
  rw [Std.ExtTreeMap.mem_keys, Std.ExtTreeMap.mem_iff_isSome_getElem?, Option.isSome_iff_exists]
  simp only [List.mem_map, h.mem_iff]
  constructor
  · rintro ⟨row, ⟨-, hvalue⟩, rfl⟩
    exact ⟨row.value, hvalue⟩
  · rintro ⟨value, hvalue⟩
    exact ⟨⟨hash name, name, value⟩, ⟨rfl, hvalue⟩, rfl⟩

theorem Represents.size_eq (h : registry.Represents map) : registry.size = map.size := by
  rw [size, ← Std.ExtTreeMap.length_keys, ← h.perm_keys.length_eq, List.length_map]

theorem Represents.isEmpty_eq (h : registry.Represents map) : registry.isEmpty = map.isEmpty := by
  rw [Std.ExtTreeMap.isEmpty_eq_size_beq_zero, ← h.size_eq, isEmpty, size]
  cases registry.table <;> rfl

theorem Represents.names_eq (h : registry.Represents map) : registry.names = map.keys := by
  have htrans : ∀ a b c : String, decide (a ≤ b) = true → decide (b ≤ c) = true →
      decide (a ≤ c) = true := by
    intro a b c hab hbc
    exact decide_eq_true (String.le_trans (of_decide_eq_true hab) (of_decide_eq_true hbc))
  have htotal : ∀ a b : String, (decide (a ≤ b) || decide (b ≤ a)) = true := by
    intro a b
    simpa using String.le_total a b
  have hkeys : map.keys.Pairwise fun a b => decide (a ≤ b) = true := by
    refine Std.ExtTreeMap.ordered_keys.imp fun {a b} hlt => decide_eq_true ?_
    exact String.not_lt.1 (String.lt_asymm (Std.LawfulLTCmp.eq_lt_iff_lt.1 hlt))
  refine ((List.mergeSort_perm _ _).trans h.perm_keys).eq_of_pairwise ?_
    (List.pairwise_mergeSort htrans htotal _) hkeys
  intro a b _ _ hab hba
  exact String.le_antisymm (of_decide_eq_true hab) (of_decide_eq_true hba)

/-! ## Rows of operations -/

/-- What can be asked of a table of names. -/
inductive Operation (α : Type) where
  | register (name : String) (value : α)
  | remove (name : String)
  | get (name : String)
  | contains (name : String)
  | size
  | isEmpty
  | names

/-- What a table of names answers. -/
inductive Answer (α : Type) where
  /-- Whether a name has a value, or had one before the operation, or whether no name has one. -/
  | flag (flag : Bool)
  | value (value : Option α)
  | count (count : Nat)
  | names (names : List String)

namespace Operation

/-- The operation on a registry. -/
def onRegistry (registry : Registry hash α) : Operation α → Answer α × Registry hash α
  | register name value =>
    let (replaced, registry) := registry.register name value
    (.flag replaced, registry)
  | remove name =>
    let (removed, registry) := registry.remove name
    (.flag removed, registry)
  | get name => (.value (registry.get? name), registry)
  | contains name => (.flag (registry.contains name), registry)
  | size => (.count registry.size, registry)
  | isEmpty => (.flag registry.isEmpty, registry)
  | names => (.names registry.names, registry)

/-- The operation on a map. -/
def onMap (map : Std.ExtTreeMap String α) : Operation α → Answer α × Std.ExtTreeMap String α
  | register name value => (.flag (map.contains name), map.insert name value)
  | remove name => (.flag (map.contains name), map.erase name)
  | get name => (.value map[name]?, map)
  | contains name => (.flag (map.contains name), map)
  | size => (.count map.size, map)
  | isEmpty => (.flag map.isEmpty, map)
  | names => (.names map.keys, map)

/-- The answers to some operations, one after the other, and what they leave. -/
def run {σ : Type} (step : σ → Operation α → Answer α × σ) (state : σ) :
    List (Operation α) → List (Answer α) × σ
  | [] => ([], state)
  | operation :: operations =>
    let (answer, state) := step state operation
    let (answers, state) := run step state operations
    (answer :: answers, state)

/-- A registry and the map that it represents answer every operation alike. -/
theorem onRegistry_eq (h : registry.Represents map) (operation : Operation α) :
    (onRegistry registry operation).1 = (onMap map operation).1 ∧
      (onRegistry registry operation).2.Represents (onMap map operation).2 := by
  cases operation with
  | register name value => exact ⟨congrArg _ (h.contains_eq name), h.insert name value⟩
  | remove name => exact ⟨congrArg _ (h.contains_eq name), h.remove name⟩
  | get name => exact ⟨congrArg _ (h.get?_eq name), h⟩
  | contains name => exact ⟨congrArg _ (h.contains_eq name), h⟩
  | size => exact ⟨congrArg _ h.size_eq, h⟩
  | isEmpty => exact ⟨congrArg _ h.isEmpty_eq, h⟩
  | names => exact ⟨congrArg _ h.names_eq, h⟩

theorem run_onRegistry_eq (h : registry.Represents map) (operations : List (Operation α)) :
    (run onRegistry registry operations).1 = (run onMap map operations).1 ∧
      (run onRegistry registry operations).2.Represents (run onMap map operations).2 := by
  induction operations generalizing registry map with
  | nil => exact ⟨rfl, h⟩
  | cons operation operations ih =>
    obtain ⟨hanswer, hnext⟩ := onRegistry_eq h operation
    obtain ⟨hanswers, hlast⟩ := ih hnext
    exact ⟨congrArg₂ List.cons hanswer hanswers, hlast⟩

end Operation

/-- The answers of a registry that starts without names. -/
def answers (hash : String → UInt64) (operations : List (Operation α)) : List (Answer α) :=
  (Operation.run Operation.onRegistry (empty : Registry hash α) operations).1

/-- What some operations make of a registry that starts without names. -/
def after (hash : String → UInt64) (operations : List (Operation α)) : Registry hash α :=
  (Operation.run Operation.onRegistry empty operations).2

/-- **The hash function decides nothing but the order of the table.** A registry answers any
operations as a plain map from names to values does. Whatever was asked of it, its table is strictly
sorted by hash and name, every row has the hash of its name, and no name has two rows; so a search
by halving finds the same values, and a registration leaves what sorting the new row in would. -/
theorem answers_eq_map (hash : String → UInt64) (operations : List (Operation α)) :
    answers hash operations = (Operation.run Operation.onMap ∅ operations).1 ∧
    (after hash operations).table.Pairwise Entry.Before ∧
    (after hash operations).table.map Entry.hash =
      (after hash operations).table.map (fun row => hash row.name) ∧
    ((after hash operations).table.map Entry.name).Nodup ∧
    (∀ name, Entry.bisect (hash name) name (after hash operations).table =
      (after hash operations).get? name) ∧
    ∀ name value, ((after hash operations).insert name value).table =
      (Entry.pushed (hash name) name value (after hash operations).table).mergeSort
        Entry.notBehind := by
  have hempty : (empty : Registry hash α).Represents ∅ := represents_empty
  obtain ⟨hanswers, h⟩ := Operation.run_onRegistry_eq hempty operations
  refine ⟨hanswers, h.sorted, ?_, h.nodup_names, ?_, ?_⟩
  · exact List.map_congr_left fun row hrow => ((h.mem_iff row).1 hrow).1
  · exact fun name => Entry.bisect_eq_find? h.sorted _ name
  · exact fun name value => Entry.put_eq_mergeSort h.sorted _ name value

/-- Two names with the same hash keep their own values. -/
example : answers (fun _ => 0)
    [.register "j" 1, .register "k" 2, .register "j" 3, .remove "k", .get "j", .get "k", .names] =
    [.flag false, .flag false, .flag true, .flag true, .value (some 3), .value none,
      .names ["j"]] := by
  cbv

end Registry

end SheetScript.Script
