import TablePlan.Sorter.Basic
import TablePlan.Table.Basic
import TablePlan.Plan.Basic

/-!
Stable sorting by several keys. Nulls come last in both directions, and cells that do not compare
count as equal. In a column of mixed cells these comparisons may contradict each other, and then the
sorting routine may give up.
-/

namespace TablePlan

namespace Cell

def sortOrder (direction : Direction) (a b : Cell) : Ordering :=
  match a.isNull, b.isNull with
  | true, true => .eq
  | true, false => .gt
  | false, true => .lt
  | false, false => direction.apply ((a.compare b).getD .eq)

end Cell

namespace Row

/-- The order of two rows: the first key on which they differ decides. -/
def sortOrder : List (Nat × Direction) → Row → Row → Ordering
  | [], _, _ => .eq
  | (i, direction) :: keys, a, b =>
    (Cell.sortOrder direction (a.cell i) (b.cell i)).then (sortOrder keys a b)

end Row

namespace Table

/-- The sorted table, or none if the routine gives up. -/
def sort (t : Table) (sorter : Sorter) (keys : List SortKey) :
    Except TableError (Option Table) := do
  t.validate
  let positions ← keys.mapM fun k => return (← t.indexOf k.column, k.direction)
  return (sorter.sort (Row.sortOrder positions) t.rows).map fun rows => ⟨t.columns, rows⟩

end Table

end TablePlan
