import TablePlan.Text.Blank

/-!
References to columns, with or without the alias of their table. The engine names a column by the
text of its reference, and reading that text gives the reference back.
-/

namespace TablePlan

open Text

structure ColumnRef where
  aliasName : Option String
  column : String
  deriving DecidableEq, Repr

namespace ColumnRef

def qualified (aliasName column : String) : ColumnRef := ⟨some aliasName, column⟩

def bare (column : String) : ColumnRef := ⟨none, column⟩

/-- The alias ends at the first dot; without a dot the whole text is the column. -/
def parse (text : String) : ColumnRef :=
  match splitAtFirst? '.' text.toList with
  | some (aliasName, column) =>
    qualified (trim (String.ofList aliasName)) (trim (String.ofList column))
  | none => bare (trim text)

def text (c : ColumnRef) : String :=
  match c.aliasName with
  | some aliasName => aliasName ++ "." ++ c.column
  | none => c.column

theorem parse_text_qualified {aliasName column : String} (dotFree : '.' ∉ aliasName.toList)
    (trimmed : trim aliasName = aliasName ∧ trim column = column) :
    parse (qualified aliasName column).text = qualified aliasName column := by
  have split : splitAtFirst? '.' (qualified aliasName column).text.toList
      = some (aliasName.toList, column.toList) := by
    simpa [text, qualified] using splitAtFirst?_append dotFree column.toList
  simp [parse, split, trimmed]

end ColumnRef

end TablePlan
