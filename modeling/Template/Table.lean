/-! # Tables

A table holds at most one value for each key, as a list of entries. What a look-up gives
after a change is stated for every change.
-/

namespace Template

structure Table (κ α : Type) where
  /-- The entries; the first one of a key counts. -/
  entries : List (κ × α)
  deriving DecidableEq, Repr

namespace Table

variable {κ α : Type} [DecidableEq κ]

def empty : Table κ α := ⟨[]⟩

def find? (table : Table κ α) (key : κ) : Option α :=
  (table.entries.find? fun entry => entry.1 = key).map (·.2)

/-- Whether the key has a value. -/
def contains (table : Table κ α) (key : κ) : Bool := (table.find? key).isSome

/-- The table without the value of a key. -/
def erase (table : Table κ α) (key : κ) : Table κ α :=
  ⟨table.entries.filter fun entry => entry.1 ≠ key⟩

/-- The table with a value for a key, in place of any earlier one. -/
def insert (table : Table κ α) (key : κ) (value : α) : Table κ α :=
  ⟨(key, value) :: (table.erase key).entries⟩

/-- The table with every value changed. -/
def map {β : Type} (f : α → β) (table : Table κ α) : Table κ β :=
  ⟨table.entries.map fun (key, value) => (key, f value)⟩

def keys (table : Table κ α) : List κ := table.entries.map (·.1)

def size (table : Table κ α) : Nat := table.entries.length

def isEmpty (table : Table κ α) : Bool := table.entries.isEmpty

@[simp] theorem find?_empty (key : κ) : (empty : Table κ α).find? key = none := rfl

theorem find?_erase (table : Table κ α) (key other : κ) :
    (table.erase key).find? other = if other = key then none else table.find? other := by
  obtain ⟨entries⟩ := table
  unfold find? erase
  induction entries with
  | nil => simp
  | cons entry entries ih =>
    simp only [List.filter_cons, List.find?_cons] at ih ⊢
    by_cases hkey : entry.1 = key
    · by_cases hother : other = key
      · simp_all
      · have : ¬entry.1 = other := fun h => hother (h ▸ hkey)
        simp_all
    · by_cases hother : entry.1 = other
      · simp_all
      · simp_all

theorem find?_insert (table : Table κ α) (key other : κ) (value : α) :
    (table.insert key value).find? other =
      if other = key then some value else table.find? other := by
  have herase := find?_erase table key other
  unfold find? at herase ⊢
  by_cases hother : other = key
  · simp [insert, hother]
  · have : ¬key = other := fun h => hother h.symm
    simp_all [insert]

theorem find?_map {β : Type} (f : α → β) (table : Table κ α) (key : κ) :
    (table.map f).find? key = (table.find? key).map f := by
  simp only [find?, map, List.find?_map, Option.map_map]
  rfl

omit [DecidableEq κ] in
theorem keys_map {β : Type} (f : α → β) (table : Table κ α) : (table.map f).keys = table.keys := by
  simp [keys, map, Function.comp_def]

end Table

end Template
