/-!
# Tables

A table gives values to names and keeps them in the order in which the names came. `get?_set` is all
that one needs to know of it.
-/

namespace SubsetC

/-- Values by name, in the order of the names' first entry. -/
structure Table (α : Type) where
  entries : List (String × α)
  deriving DecidableEq, Repr, Inhabited

namespace Table

variable {α : Type}

/-- The table without entries. -/
def empty : Table α := ⟨[]⟩

/-- The value that a list of entries gives to a name. -/
def find? (name : String) : List (String × α) → Option α
  | [] => none
  | (key, value) :: entries => if key = name then some value else find? name entries

/-- The entries with `name` at `value`: in its place if it has one, and last otherwise. -/
def put (name : String) (value : α) : List (String × α) → List (String × α)
  | [] => [(name, value)]
  | (key, old) :: entries =>
    if key = name then (key, value) :: entries else (key, old) :: put name value entries

/-- The value of a name. -/
def get? (table : Table α) (name : String) : Option α :=
  find? name table.entries

/-- The table with a name at a value, whatever it was at before. -/
def set (table : Table α) (name : String) (value : α) : Table α :=
  ⟨put name value table.entries⟩

/-- The name has a value. -/
def contains (table : Table α) (name : String) : Bool :=
  (table.get? name).isSome

/-- The number of names. -/
def size (table : Table α) : Nat :=
  table.entries.length

/-- No name has a value. -/
def isEmpty (table : Table α) : Bool :=
  table.entries.isEmpty

@[simp]
theorem get?_empty (name : String) : (empty : Table α).get? name = none := rfl

theorem get?_set (table : Table α) (name other : String) (value : α) :
    (table.set name value).get? other = if name = other then some value else table.get? other := by
  obtain ⟨entries⟩ := table
  simp only [get?, set]
  induction entries with
  | nil => simp [put, find?]
  | cons entry entries ih =>
    obtain ⟨key, old⟩ := entry
    by_cases same : key = name
    · subst same
      by_cases here : key = other <;> simp [put, find?, here]
    · by_cases here : key = other
      · subst here
        simp [put, find?, same, Ne.symm same]
      · simp [put, find?, same, here, ih]

end Table

end SubsetC
