import TablePlan.Plan.Basic

/-!
Plans told step by step: one line for each step, in the order in which the steps run.
-/

namespace TablePlan

open Text (joined)

namespace JoinEdge

def explain (tables : List TableDecl) (e : JoinEdge) : String :=
  let physical := ((findTable? tables e.rightAlias).map TableDecl.physicalName).getD "?"
  s!"join {e.kind.name} {e.rightAlias} <- {physical} on {e.leftKey.text} == {e.rightKey.text}"

end JoinEdge

namespace Grouping

def explain (g : Grouping) : String :=
  let keys := joined ", " (g.keys.map ColumnRef.text)
  let calls := joined ", " (g.aggregates.map AggregateCall.label)
  s!"aggregate by [{keys}] compute [{calls}]"

end Grouping

namespace Plan

def steps (plan : Plan) : List String :=
  ((plan.table? plan.root).map fun t => s!"scan {t.aliasName} <- {t.physicalName}").toList
    ++ plan.joins.map (JoinEdge.explain plan.tables)
    ++ (plan.filter.map fun p => s!"filter {p.text}").toList
    ++ (plan.grouping.map Grouping.explain).toList
    ++ (plan.having.map fun p => s!"having {p.text}").toList
    ++ ["project " ++ joined ", " (plan.output.map fun o => s!"{o.source.columnName} as {o.name}")]
    ++ (if plan.sort.isEmpty then [] else
      ["sort " ++ joined ", " (plan.sort.map fun k => s!"{k.column} {k.direction.name}")])

def explain (plan : Plan) : String :=
  s!"plan {plan.name}\n" ++ String.join (plan.steps.map fun step => s!"  {step}\n")

end Plan

end TablePlan
