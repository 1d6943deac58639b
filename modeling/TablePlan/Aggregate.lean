import TablePlan.ColumnRef

/-!
The five aggregate functions and their calls over a column or over all rows.
-/

namespace TablePlan

inductive AggregateFunction where
  | count | sum | avg | min | max
  deriving DecidableEq, Repr

namespace AggregateFunction

/-- Names are read without regard to case; `mean` is another name of `avg`. -/
def ofName? (name : String) : Option AggregateFunction :=
  match name.toLower with
  | "count" => some .count
  | "sum" => some .sum
  | "avg" | "mean" => some .avg
  | "min" => some .min
  | "max" => some .max
  | _ => none

def name : AggregateFunction → String
  | .count => "count"
  | .sum => "sum"
  | .avg => "avg"
  | .min => "min"
  | .max => "max"

theorem ofName?_name (f : AggregateFunction) : ofName? f.name = some f := by
  cases f <;> decide +kernel

end AggregateFunction

/-- A call; without an argument it ranges over whole rows, written `*`. -/
structure AggregateCall where
  function : AggregateFunction
  argument : Option ColumnRef
  deriving DecidableEq, Repr

namespace AggregateCall

def label (call : AggregateCall) : String :=
  call.function.name ++ "(" ++ (match call.argument with
    | some column => column.text
    | none => "*") ++ ")"

end AggregateCall

end TablePlan
