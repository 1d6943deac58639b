import TablePlan.Plan.JoinOrder
import TablePlan.Resolution.Basic

/-!
Plans put together from a resolved spec, its join order, its output columns and its sort keys. Join
conditions left over stand in front of the filter; aggregates stand in `select` and `having` only,
and `having` reads group columns and aggregates.
-/

namespace TablePlan

namespace ResolvedSpec

def grouping? (spec : ResolvedSpec) : Option Grouping :=
  if spec.isAggregated then some ⟨spec.group, spec.aggregates⟩ else none

def checkFilter (spec : ResolvedSpec) : Except PlanError Unit :=
  match (spec.filter.map Predicate.aggregates).getD [] with
  | call :: _ => .error (.aggregateInFilter call)
  | [] => .ok ()

def isUngrouped (spec : ResolvedSpec) : Operand → Option ColumnRef
  | .column ref => if spec.group.contains ref then none else some ref
  | _ => none

def checkHaving (spec : ResolvedSpec) : Except PlanError Unit :=
  match spec.having with
  | none => .ok ()
  | some having =>
    if !spec.isAggregated then .error .havingWithoutGrouping
    else match having.operands.findSome? spec.isUngrouped with
      | some ref => .error (.ungroupedColumn ref)
      | none => .ok ()

def assemble (spec : ResolvedSpec) (order : JoinOrder) (output : List OutputColumn)
    (sort : List SortKey) : Except PlanError Plan := do
  spec.checkFilter
  spec.checkHaving
  return {
    name := spec.name
    root := order.root
    tables := spec.tables
    joins := order.steps
    filter := Predicate.conjunction?
      (order.residual.map JoinEdge.condition ++ spec.filter.toList)
    grouping := spec.grouping?
    having := spec.having
    output, sort }

end ResolvedSpec

end TablePlan
