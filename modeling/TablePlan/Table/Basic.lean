import TablePlan.Cell

/-!
Tables of named columns. A table is valid when its column names are distinct and every row is as
wide as the columns; the check reports the first fault.
-/

namespace TablePlan

abbrev Row := List Cell

/-- A table as it is given: nothing about names and widths is promised. -/
structure Table where
  columns : List String
  rows : List Row
  deriving Inhabited

inductive TableError where
  | unknownColumn (name : String)
  | duplicateColumn (name : String)
  | rowWidth (row found expected : Nat)
  | typeMismatch (function : AggregateFunction) (value : Cell)
  | invalidData

namespace TableError

def message : TableError → String
  | .unknownColumn name => s!"Unknown column '{name}'"
  | .duplicateColumn name => s!"Duplicate column '{name}'"
  | .rowWidth row found expected => s!"Row {row} has {found} values, expected {expected}"
  | .typeMismatch function value =>
    s!"Cannot compute {function.name} over value '{value.toText}'"
  | .invalidData => "Invalid table data"

end TableError

/-- The cell at a position; null beyond the end of the row. -/
def Row.cell (row : Row) (position : Nat) : Cell :=
  row.getD position .null

def Row.nulls (width : Nat) : Row :=
  List.replicate width .null

namespace Table

/-- Distinct column names, and rows as wide as the columns. -/
structure Valid (t : Table) : Prop where
  distinct : t.columns.Nodup
  width : ∀ row ∈ t.rows, row.length = t.columns.length

def firstRepeat? : (seen names : List String) → Option String
  | _, [] => none
  | seen, name :: names =>
    if name ∈ seen then some name else firstRepeat? (name :: seen) names

def firstMisfit? (width : Nat) : (position : Nat) → List Row → Option (Nat × Nat)
  | _, [] => none
  | position, row :: rows =>
    if row.length = width then firstMisfit? width (position + 1) rows
    else some (position, row.length)

def validate (t : Table) : Except TableError Unit :=
  match firstRepeat? [] t.columns with
  | some name => .error (.duplicateColumn name)
  | none => match firstMisfit? t.columns.length 0 t.rows with
    | some (row, found) => .error (.rowWidth row found t.columns.length)
    | none => .ok ()

def ofRows (columns : List String) (rows : List Row) : Except TableError Table := do
  let t : Table := ⟨columns, rows⟩
  t.validate
  return t

def indexOf (t : Table) (name : String) : Except TableError Nat :=
  match t.columns.findIdx? (· == name) with
  | some i => .ok i
  | none => .error (.unknownColumn name)

def column (t : Table) (name : String) : Except TableError (List Cell) := do
  let i ← t.indexOf name
  return t.rows.map fun row => row.cell i

def columnNames (t : Table) : Except TableError (List String) := do
  t.validate
  return t.columns

theorem firstRepeat?_eq_none_iff {seen names : List String} :
    firstRepeat? seen names = none ↔ names.Nodup ∧ ∀ name ∈ names, name ∉ seen := by
  induction names generalizing seen with
  | nil => simp [firstRepeat?]
  | cons name names ih =>
    by_cases h : name ∈ seen
    · simp [firstRepeat?, h]
    · simp only [firstRepeat?, h, if_false, ih, List.nodup_cons, List.mem_cons]
      constructor
      · rintro ⟨distinct, fresh⟩
        refine ⟨⟨fun again => (fresh _ again) (.inl rfl), distinct⟩, ?_⟩
        rintro other (rfl | mem)
        · exact h
        · exact fun old => fresh other mem (.inr old)
      · rintro ⟨⟨once, distinct⟩, fresh⟩
        refine ⟨distinct, fun other mem => ?_⟩
        rintro (rfl | old)
        · exact once mem
        · exact fresh other (.inr mem) old

theorem firstMisfit?_eq_none_iff {width position : Nat} {rows : List Row} :
    firstMisfit? width position rows = none ↔ ∀ row ∈ rows, row.length = width := by
  induction rows generalizing position with
  | nil => simp [firstMisfit?]
  | cons row rows ih => by_cases h : row.length = width <;> simp [firstMisfit?, h, ih]

theorem validate_eq_ok_iff {t : Table} : t.validate = .ok () ↔ t.Valid := by
  unfold validate
  split
  · rename_i name found
    have : ¬ t.columns.Nodup := fun distinct => by
      rw [firstRepeat?_eq_none_iff.2 ⟨distinct, fun _ _ => List.not_mem_nil⟩] at found
      cases found
    exact ⟨nofun, fun valid => absurd valid.distinct this⟩
  · rename_i distinct
    have distinct := (firstRepeat?_eq_none_iff.1 distinct).1
    split
    · rename_i position found misfit
      refine ⟨nofun, fun valid => ?_⟩
      rw [firstMisfit?_eq_none_iff.2 valid.width] at misfit
      cases misfit
    · rename_i fits
      exact ⟨fun _ => ⟨distinct, firstMisfit?_eq_none_iff.1 fits⟩, fun _ => rfl⟩

end Table

end TablePlan
