import TablePlan.Table.Aggregation

/-!
Rows grouped by the keys of some of their cells. Groups stand in the order of their first rows, and
each keeps the group cells of its first row.
-/

namespace TablePlan

structure Group where
  key : List CellKey
  cells : List Cell
  members : Array Row

namespace Group

/-- Adds a row to the group of its key, or opens a group for it at the end. -/
def insertRow (positions : List Nat) (row : Row) : List Group → List Group
  | [] => [⟨positions.map fun i => (row.cell i).key, positions.map row.cell, #[row]⟩]
  | g :: gs =>
    if g.key = positions.map fun i => (row.cell i).key then
      { g with members := g.members.push row } :: gs
    else g :: insertRow positions row gs

/-- The groups of rows. Without group columns all rows form one group, even if there are none. -/
def ofRows (positions : List Nat) (rows : List Row) : List Group :=
  if positions.isEmpty && rows.isEmpty then [⟨[], [], #[]⟩]
  else rows.foldl (fun groups row => insertRow positions row groups) []

end Group

namespace AggregateCall

def evaluate (call : AggregateCall) (position : Option Nat) (members : List Row) :
    Except TableError Cell :=
  match position with
  | some i => call.function.aggregate (members.map fun row => row.cell i)
  | none => .ok (.int (Int64.ofNat members.length))

end AggregateCall

namespace Table

def argumentIndex (t : Table) (call : AggregateCall) : Except TableError (Option Nat) :=
  match call.argument with
  | some column => return some (← t.indexOf column.text)
  | none => return none

def group (t : Table) (columns : List String) (calls : List AggregateCall) :
    Except TableError Table := do
  t.validate
  let positions ← columns.mapM t.indexOf
  let arguments ← calls.mapM t.argumentIndex
  let rows ← (Group.ofRows positions t.rows).mapM fun g => do
    let values ← (calls.zip arguments).mapM fun (call, position) =>
      call.evaluate position g.members.toList
    return g.cells ++ values
  ofRows (columns ++ calls.map AggregateCall.label) rows

end Table

end TablePlan
