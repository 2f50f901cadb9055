/-!
# Association maps

Finite maps from keys to values, small enough to be lists. Binding a key again replaces its value in
place, so a key occurs at most once and keeps the place of its first binding.
-/

namespace ExactLisp

/-- A finite map, as the list of its entries in the order in which the keys were first bound. -/
structure Assoc (κ α : Type) where
  entries : List (κ × α)

namespace Assoc

variable {κ α : Type} [DecidableEq κ]

/-- The map without entries. -/
def empty : Assoc κ α := ⟨[]⟩

/-- The value of a key in a list of entries. -/
def findEntry (key : κ) : List (κ × α) → Option α
  | [] => none
  | (other, value) :: entries => if other = key then some value else findEntry key entries

/-- Binds a key in a list of entries. -/
def insertEntry (key : κ) (value : α) : List (κ × α) → List (κ × α)
  | [] => [(key, value)]
  | (other, old) :: entries =>
    if other = key then (key, value) :: entries else (other, old) :: insertEntry key value entries

/-- The value of a key. -/
def get? (map : Assoc κ α) (key : κ) : Option α :=
  findEntry key map.entries

/-- Binds a key, in place of its earlier value if it has one. -/
def insert (map : Assoc κ α) (key : κ) (value : α) : Assoc κ α :=
  ⟨insertEntry key value map.entries⟩

/-- Removes a key. -/
def erase (map : Assoc κ α) (key : κ) : Assoc κ α :=
  ⟨map.entries.filter fun entry => entry.1 ≠ key⟩

/-- Whether a key is bound. -/
def contains (map : Assoc κ α) (key : κ) : Bool :=
  (map.get? key).isSome

/-- The bound keys. -/
def keys (map : Assoc κ α) : List κ :=
  map.entries.map Prod.fst

@[simp]
theorem get?_empty (key : κ) : (empty : Assoc κ α).get? key = none := rfl

/-- Reading after binding: the bound key has the new value, every other key its old one. -/
theorem get?_insert (map : Assoc κ α) (key : κ) (value : α) (asked : κ) :
    (map.insert key value).get? asked = if asked = key then some value else map.get? asked := by
  obtain ⟨entries⟩ := map
  simp only [get?, insert]
  induction entries with
  | nil => simp [insertEntry, findEntry, eq_comm]
  | cons entry entries ih => grind [insertEntry, findEntry]

/-- Reading after removing: the removed key has no value, every other key its old one. -/
theorem get?_erase (map : Assoc κ α) (key asked : κ) :
    (map.erase key).get? asked = if asked = key then none else map.get? asked := by
  obtain ⟨entries⟩ := map
  simp only [get?, erase]
  induction entries with
  | nil => simp [findEntry]
  | cons entry entries ih => grind [findEntry]

/-- The bound keys are those that have a value. -/
theorem mem_keys_iff (map : Assoc κ α) (key : κ) : key ∈ map.keys ↔ map.contains key := by
  obtain ⟨entries⟩ := map
  simp only [keys, contains, get?]
  induction entries with
  | nil => simp [findEntry]
  | cons entry entries ih => grind [findEntry]

end Assoc

end ExactLisp
