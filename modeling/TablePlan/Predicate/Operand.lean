import TablePlan.Aggregate
import TablePlan.Calendar.Date
import TablePlan.Decimal.Layout

/-!
The leaves of conditions: literals, columns and aggregate calls, and their text.
-/

namespace TablePlan

open Calendar (Date)

inductive Literal where
  | text (value : String)
  | number (value : Float)
  | date (value : Date)
  | bool (value : Bool)
  | null

namespace Literal

def quoted (s : String) : String :=
  "'" ++ String.ofList (s.toList.flatMap fun c => if c = '\'' then ['\'', '\''] else [c]) ++ "'"

def toText : Literal → String
  | .text value => quoted value
  | .number value => Decimal.Layout.plain.text value
  | .date value => "'" ++ value.text ++ "'"
  | .bool value => toString value
  | .null => "NULL"

end Literal

inductive Operand where
  | column (ref : ColumnRef)
  | literal (value : Literal)
  | aggregate (call : AggregateCall)

namespace Operand

def columnName? : Operand → Option String
  | .column ref => some ref.text
  | .literal _ => none
  | .aggregate call => some call.label

def text : Operand → String
  | .column ref => ref.text
  | .literal value => value.toText
  | .aggregate call => call.label

def aggregate? : Operand → Option AggregateCall
  | .aggregate call => some call
  | _ => none

end Operand

inductive ColumnSource where
  | column (ref : ColumnRef)
  | aggregate (call : AggregateCall)
  deriving DecidableEq, Repr

namespace ColumnSource

def columnName : ColumnSource → String
  | .column ref => ref.text
  | .aggregate call => call.label

def toOperand : ColumnSource → Operand
  | .column ref => .column ref
  | .aggregate call => .aggregate call

theorem toOperand_columnName? (source : ColumnSource) :
    source.toOperand.columnName? = some source.columnName := by
  cases source <;> rfl

end ColumnSource

end TablePlan
