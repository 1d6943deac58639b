import TablePlan.Named
import TablePlan.Table.Basic
import TablePlan.Json.Reader
import TablePlan.Json.Number

/-!
Named tables read from a JSON document: an object of tables, each an object with the members
`columns` and `rows` or an array of these two. Cells are null, booleans, numbers and texts, where a
text that reads as a date is that date. The last table of a name counts, and tables stand in the
order of their names.
-/

namespace TablePlan

open Calendar (Date)

abbrev Datasets := Named Table

namespace Cell

def ofNumber? (digits : String) : Option Cell :=
  match Json.Number.toInt64? digits with
  | some n => some (.int n)
  | none => (Json.Number.toFloat? digits).map .float

def ofText (s : String) : Cell :=
  match Date.ofText? .anywhere s with
  | some d => .date d
  | none => .text s

def ofJson? : Json → Option Cell
  | .null => some .null
  | .bool b => some (.bool b)
  | .number digits => ofNumber? digits
  | .string s => some (ofText s)
  | _ => none

end Cell

namespace Table

def columnsOfJson? : Json → Option (List String)
  | .array items => items.mapM fun
    | .string name => some name
    | _ => none
  | _ => none

def rowOfJson? : Json → Option Row
  | .array items => items.mapM Cell.ofJson?
  | _ => none

def rowsOfJson? : Json → Option (List Row)
  | .array items => items.mapM rowOfJson?
  | _ => none

def soleMember? (name : String) (members : List (String × Json)) : Option Json :=
  match members.filter fun m => m.1 == name with
  | [(_, value)] => some value
  | _ => none

def ofJson? : Json → Option Table
  | .object members => do
    let columns ← columnsOfJson? (← soleMember? "columns" members)
    let rows ← rowsOfJson? (← soleMember? "rows" members)
    return ⟨columns, rows⟩
  | .array [columns, rows] => do
    return ⟨← columnsOfJson? columns, ← rowsOfJson? rows⟩
  | _ => none

end Table

namespace Datasets

/-- The tables of a document, in the order of their names; none of them need be valid. -/
def ofJson? : Json → Option Datasets
  | .object members => do
    let tables ← members.mapM fun (name, value) => do return (name, ← Table.ofJson? value)
    return Named.ofList tables
  | _ => none

def load (document : Option Json) : Except TableError Datasets :=
  match document.bind ofJson? with
  | none => .error .invalidData
  | some data => do
    data.forM fun (_, t) => t.validate
    return data

end Datasets

end TablePlan
