import TablePlan.Table.Loading

/-!
The columns of physical tables, which specs name but never declare. They come from a document, an
object of lists of names, or from the tables at hand.
-/

namespace TablePlan

abbrev Schemas := Named (List String)

namespace Schemas

def ofJson? : Json → Option Schemas
  | .object members => do
    let entries ← members.mapM fun (name, columns) =>
      return (name, ← Table.columnsOfJson? columns)
    return Named.ofList entries
  | _ => none

end Schemas

namespace Datasets

/-- The columns of the tables at hand; a table that is not valid has none. -/
def schemas (data : Datasets) : Schemas :=
  data.filterMap fun (name, t) => match t.columnNames with
    | .ok columns => some (name, columns)
    | .error _ => none

end Datasets

end TablePlan
