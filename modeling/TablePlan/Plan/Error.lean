import TablePlan.Plan.Join

/-!
Why a resolved spec has no plan.
-/

namespace TablePlan

open Text (joined)

inductive PlanError where
  | disconnected (root : String) (unreached : List String)
  | duplicateJoin (left right : String)
  | unjoinedTable (aliasName : String)
  | selfJoin (aliasName : String)
  | noTables
  | undeclaredAlias (aliasName : String)
  | aggregateInFilter (call : AggregateCall)
  | havingWithoutGrouping
  | ungroupedColumn (column : ColumnRef)
  deriving DecidableEq, Repr

namespace PlanError

def message : PlanError → String
  | .disconnected root unreached =>
    let names := joined ", " unreached
    s!"Join graph is disconnected: {names} not reachable from '{root}'"
  | .duplicateJoin left right => s!"Duplicate join between '{left}' and '{right}'"
  | .unjoinedTable aliasName => s!"Table '{aliasName}' is not part of any join condition"
  | .selfJoin aliasName => s!"Table '{aliasName}' is joined to itself"
  | .noTables => "Invalid join: no tables declared"
  | .undeclaredAlias aliasName => s!"Invalid join: undeclared alias '{aliasName}'"
  | .aggregateInFilter call =>
    s!"Aggregate '{call.label}' used in filter_condition; use having_condition"
  | .havingWithoutGrouping => "having_condition requires group_condition or an aggregate"
  | .ungroupedColumn column =>
    s!"Column '{column.text}' in having_condition is not in group_condition"

end PlanError

end TablePlan
