import TablePlan.Table.Basic

/-!
Columns chosen and renamed.
-/

namespace TablePlan

structure Renaming where
  source : String
  name : String
  deriving DecidableEq

namespace Table

def project (t : Table) (columns : List Renaming) : Except TableError Table := do
  t.validate
  let positions ← columns.mapM fun c => t.indexOf c.source
  ofRows (columns.map Renaming.name) (t.rows.map fun row => positions.map row.cell)

def qualify (t : Table) (aliasName : String) : Except TableError Table := do
  let columns ← t.columnNames
  t.project (columns.map fun c => ⟨c, aliasName ++ "." ++ c⟩)

end Table

end TablePlan
