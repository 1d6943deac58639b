import TablePlan.Table.Basic
import TablePlan.Plan.Join
import Std.Data.HashMap

/-!
Joins of two tables on one key column each. The rows of the right side are found through an index
by key; the nested loop over both sides is the plain meaning of the join, and a row of either side
matches exactly the rows of the other side with the same key.
-/

namespace TablePlan

/-- Whether two cells match: neither is null and they have the same key. -/
def Cell.matches (a b : Cell) : Bool :=
  !a.isNull && !b.isNull && a.key == b.key

/-- Rows by the key of one of their cells; rows with a null there are left out. -/
structure KeyIndex where
  buckets : Std.HashMap CellKey (List Row)

namespace KeyIndex

def empty : KeyIndex := ⟨∅⟩

def lookup (index : KeyIndex) (cell : Cell) : List Row :=
  if cell.isNull then [] else index.buckets.getD cell.key []

/-- Adds a row in front of the others of its key. -/
def insert (index : KeyIndex) (cell : Cell) (row : Row) : KeyIndex :=
  if cell.isNull then index
  else ⟨index.buckets.insert cell.key (row :: index.buckets.getD cell.key [])⟩

def ofRows (position : Nat) (rows : List Row) : KeyIndex :=
  rows.foldr (fun row index => index.insert (row.cell position) row) empty

theorem lookup_insert (index : KeyIndex) (cell other : Cell) (row : Row) :
    (index.insert cell row).lookup other =
      if Cell.matches other cell then row :: index.lookup other else index.lookup other := by
  unfold insert lookup Cell.matches
  cases h : cell.isNull <;> cases h' : other.isNull <;>
    simp [Std.HashMap.getD_insert]
  by_cases same : cell.key = other.key
  · simp [same]
  · simp [same, Ne.symm same]

theorem lookup_ofRows (position : Nat) (rows : List Row) (cell : Cell) :
    (ofRows position rows).lookup cell =
      rows.filter fun row => Cell.matches cell (row.cell position) := by
  induction rows with
  | nil => simp [ofRows, empty, lookup]
  | cons row rows ih =>
    rw [ofRows, List.foldr_cons, lookup_insert, ← ofRows, ih, List.filter_cons]

end KeyIndex

namespace Table

/-- The rows that one left row gives: itself with each match, or with nulls if it has none and
stays. -/
def joinLeftRow (kind : JoinKind) (rightWidth : Nat) (row : Row) (found : List Row) : List Row :=
  if found.isEmpty then
    if kind.keepsLeft then [row ++ Row.nulls rightWidth] else []
  else found.map (row ++ ·)

/-- The left table joined to the right one. Right rows without a match follow the others. -/
def join (left right : Table) (leftKey rightKey : String) (kind : JoinKind) :
    Except TableError Table := do
  left.validate
  right.validate
  let i ← left.indexOf leftKey
  let j ← right.indexOf rightKey
  let rightIndex := KeyIndex.ofRows j right.rows
  let leftIndex := KeyIndex.ofRows i left.rows
  let matched := left.rows.flatMap fun row =>
    joinLeftRow kind right.columns.length row (rightIndex.lookup (row.cell i))
  let unmatched := right.rows.filter fun row => (leftIndex.lookup (row.cell j)).isEmpty
  let kept := if kind.keepsRight then
      unmatched.map (Row.nulls left.columns.length ++ ·)
    else []
  ofRows (left.columns ++ right.columns) (matched ++ kept)

end Table

end TablePlan
