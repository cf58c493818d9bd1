/-!
# Registries

A registry finds values by name. Its table is sorted by the hash of the name and, among names with
the same hash, by the name itself, so that two names that share a hash keep their own values. The
hash function is a parameter: it decides the order of the table and nothing else.
-/

namespace SheetScript.Script

/-- One row of the table. -/
structure Entry (α : Type) where
  hash : UInt64
  name : String
  value : α

/-- A table from names to values, sorted by `hash` and name. -/
structure Registry (hash : String → UInt64) (α : Type) where
  table : List (Entry α) := []

namespace Entry

variable {α : Type}

/-- A key compared with the key of a row. -/
def compareKey (hash : UInt64) (name : String) (entry : Entry α) : Ordering :=
  (compare hash entry.hash).then (compare name entry.name)

/-- The value in a sorted table under a key. -/
def find? (hash : UInt64) (name : String) : List (Entry α) → Option α
  | [] => none
  | entry :: rest =>
    match compareKey hash name entry with
    | .lt => none
    | .eq => some entry.value
    | .gt => find? hash name rest

/-- A sorted table with the value under a key added or replaced. -/
def put (hash : UInt64) (name : String) (value : α) : List (Entry α) → List (Entry α)
  | [] => [⟨hash, name, value⟩]
  | entry :: rest =>
    match compareKey hash name entry with
    | .lt => ⟨hash, name, value⟩ :: entry :: rest
    | .eq => { entry with value } :: rest
    | .gt => entry :: put hash name value rest

/-- A sorted table without a key. -/
def erase (hash : UInt64) (name : String) : List (Entry α) → List (Entry α)
  | [] => []
  | entry :: rest =>
    match compareKey hash name entry with
    | .lt => entry :: rest
    | .eq => rest
    | .gt => entry :: erase hash name rest

end Entry

namespace Registry

variable {hash : String → UInt64} {α : Type}

/-- A registry without names. -/
def empty : Registry hash α := {}

/-- The value of a name. -/
def get? (registry : Registry hash α) (name : String) : Option α :=
  Entry.find? (hash name) name registry.table

/-- Whether a name has a value. -/
def contains (registry : Registry hash α) (name : String) : Bool := (registry.get? name).isSome

/-- The registry in which a name has the given value. -/
def insert (registry : Registry hash α) (name : String) (value : α) : Registry hash α :=
  ⟨Entry.put (hash name) name value registry.table⟩

/-- Gives a value to a name, and tells whether it had one before. -/
def register (registry : Registry hash α) (name : String) (value : α) : Bool × Registry hash α :=
  (registry.contains name, registry.insert name value)

/-- Takes the value of a name away, and tells whether it had one. -/
def remove (registry : Registry hash α) (name : String) : Bool × Registry hash α :=
  (registry.contains name, ⟨Entry.erase (hash name) name registry.table⟩)

/-- How many names have a value. -/
def size (registry : Registry hash α) : Nat := registry.table.length

/-- No name has a value. -/
def isEmpty (registry : Registry hash α) : Bool := registry.table.isEmpty

/-- The names in alphabetical order. -/
def names (registry : Registry hash α) : List String :=
  (registry.table.map Entry.name).mergeSort fun a b => a ≤ b

end Registry

/-- A hash of a name, from the code points of its characters. -/
def nameHash (name : String) : UInt64 :=
  name.toList.foldl (fun h c => (h ^^^ c.val.toUInt64) * 0x100000001b3) 0xcbf29ce484222325

end SheetScript.Script
