/-!
Values by name, in the order of their names. Inserting under a name replaces the value that stands
there, and a lookup finds the last value inserted.
-/

namespace TablePlan

abbrev Named (α : Type) := List (String × α)

namespace Named

variable {α : Type}

def find? (name : String) : Named α → Option α
  | [] => none
  | (other, value) :: rest => if other = name then some value else find? name rest

def insert (name : String) (value : α) : Named α → Named α
  | [] => [(name, value)]
  | (other, old) :: rest =>
    if name = other then (name, value) :: rest
    else if name < other then (name, value) :: (other, old) :: rest
    else (other, old) :: insert name value rest

def names (entries : Named α) : List String :=
  entries.map Prod.fst

/-- The values of a list of entries; of a repeated name the last one counts. -/
def ofList (entries : List (String × α)) : Named α :=
  entries.foldl (fun named entry => named.insert entry.1 entry.2) []

theorem find?_insert_self (name : String) (value : α) (entries : Named α) :
    find? name (insert name value entries) = some value := by
  induction entries with
  | nil => simp [insert, find?]
  | cons entry rest ih =>
    obtain ⟨other, old⟩ := entry
    unfold insert
    split
    · simp [find?]
    · rename_i differ
      split
      · simp [find?]
      · simp [find?, Ne.symm differ, ih]

theorem find?_insert_of_ne {name other : String} (differ : other ≠ name) (value : α)
    (entries : Named α) : find? other (insert name value entries) = find? other entries := by
  induction entries with
  | nil => simp [insert, find?, Ne.symm differ]
  | cons entry rest ih =>
    obtain ⟨first, old⟩ := entry
    unfold insert
    split
    · rename_i same
      subst same
      simp [find?, Ne.symm differ]
    · split
      · simp [find?, Ne.symm differ]
      · simp [find?, ih]

end Named

end TablePlan
