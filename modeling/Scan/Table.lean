/-!
# Tables

Values under names, kept in the order of the names, so that a listing needs no sorting and equal
tables look alike.
-/

namespace Scan

/-- Values under names. -/
abbrev Table (β : Type) := List (String × β)

namespace Table

variable {β : Type}

/-- The value under a name. -/
def get? (table : Table β) (name : String) : Option β :=
  match table with
  | [] => none
  | (other, value) :: rest => if other = name then some value else get? rest name

/-- Puts a value under a name, in the place of the value that was there. -/
def insert (table : Table β) (name : String) (value : β) : Table β :=
  match table with
  | [] => [(name, value)]
  | (other, old) :: rest =>
      if other = name then (name, value) :: rest
      else if name < other then (name, value) :: (other, old) :: rest
      else (other, old) :: insert rest name value

/-- The table of some entries, of which the last one of a name counts. -/
def ofList (entries : List (String × β)) : Table β :=
  entries.foldl (fun table entry => insert table entry.1 entry.2) []

/-- The names in order. -/
def names (table : Table β) : List String :=
  table.map Prod.fst

@[simp] theorem get?_insert_self (table : Table β) (name : String) (value : β) :
    get? (insert table name value) name = some value := by
  induction table with
  | nil => simp [insert, get?]
  | cons entry rest ih =>
      obtain ⟨other, old⟩ := entry
      by_cases same : other = name
      · simp [insert, same, get?]
      · by_cases before : name < other <;> simp [insert, same, before, get?, ih]

theorem get?_insert_of_ne (table : Table β) {name other : String} (value : β)
    (different : other ≠ name) : get? (insert table name value) other = get? table other := by
  induction table with
  | nil => simp [insert, get?, different.symm]
  | cons entry rest ih =>
      obtain ⟨found, old⟩ := entry
      by_cases same : found = name
      · subst same
        simp [insert, get?, different.symm]
      · by_cases before : name < found
        · simp [insert, same, before, get?, different.symm]
        · simp [insert, same, before, get?, ih]

/-- A table has one value under each name. -/
theorem get?_insert (table : Table β) (name other : String) (value : β) :
    get? (insert table name value) other =
      if other = name then some value else get? table other := by
  by_cases same : other = name
  · simp [same]
  · simp [same, get?_insert_of_ne table value same]

end Table

end Scan
