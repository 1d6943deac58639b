import TablePlan.Plan.Basic
import TablePlan.Table.Loading
import TablePlan.Table.Join
import TablePlan.Table.Filter
import TablePlan.Table.Grouping
import TablePlan.Table.Projection
import TablePlan.Table.Sorting

/-!
Plans run over datasets. Every declared table is taken under the names `alias.column`; then come
the joins from the root on, the filter, the groups with the condition on them, the output columns
and the sort. The first step that fails ends the run.
-/

namespace TablePlan

inductive Step where
  | qualify | join | filter | aggregate | having | project | sort
  deriving DecidableEq, Repr

namespace Step

def name : Step → String
  | .qualify => "qualify"
  | .join => "join"
  | .filter => "filter"
  | .aggregate => "aggregate"
  | .having => "having"
  | .project => "project"
  | .sort => "sort"

end Step

inductive StepFault where
  | table (error : TableError)
  | unavailableAlias (aliasName : String)

namespace StepFault

def message : StepFault → String
  | .table error => error.message
  | .unavailableAlias aliasName => s!"alias '{aliasName}' is not available to join"

end StepFault

inductive ExecutionError where
  | missingDataset (aliasName tableName : String)
  | stepFailed (step : Step) (fault : StepFault)

namespace ExecutionError

def message : ExecutionError → String
  | .missingDataset aliasName tableName =>
    s!"No dataset named '{tableName}' for alias '{aliasName}'"
  | .stepFailed step fault => s!"Execution failed at {step.name} step: {fault.message}"

end ExecutionError

def Step.run {α : Type} (step : Step) (result : Except TableError α) : Except ExecutionError α :=
  result.mapError fun error => .stepFailed step (.table error)

/-- The tables that still wait to be joined, by alias. -/
abbrev Inputs := Named Table

namespace Inputs

/-- Every declared table under its alias, its columns qualified; of a repeated alias the last
table counts. -/
def ofTables (data : Datasets) (tables : List TableDecl) : Except ExecutionError Inputs := do
  let entries ← tables.mapM fun t => match data.find? t.physicalName with
    | some table => do return (t.aliasName, ← Step.qualify.run (table.qualify t.aliasName))
    | none => .error (.missingDataset t.aliasName t.physicalName)
  return Named.ofList entries

def take (inputs : Inputs) (aliasName : String) : Except ExecutionError (Table × Inputs) :=
  match inputs.find? aliasName with
  | some table => .ok (table, inputs.filter fun entry => entry.1 != aliasName)
  | none => .error (.stepFailed .join (.unavailableAlias aliasName))

def joinAll : (inputs : Inputs) → (joined : Table) → List JoinEdge → Except ExecutionError Table
  | _, joined, [] => .ok joined
  | inputs, joined, edge :: edges => do
    let (right, inputs) ← inputs.take edge.rightAlias
    let joined ← Step.join.run
      (joined.join right edge.leftKey.text edge.rightKey.text edge.kind)
    joinAll inputs joined edges

end Inputs

def runIf {α : Type} (wanted : Option α) (run : Table → α → Except ExecutionError Table)
    (t : Table) : Except ExecutionError Table :=
  match wanted with
  | some a => run t a
  | none => .ok t

def Grouping.run (g : Grouping) (t : Table) : Except ExecutionError Table :=
  Step.aggregate.run (t.group (g.keys.map ColumnRef.text) g.aggregates)

def OutputColumn.renaming (o : OutputColumn) : Renaming := ⟨o.source.columnName, o.name⟩

namespace Plan

def joined (plan : Plan) (data : Datasets) : Except ExecutionError Table := do
  let inputs ← Inputs.ofTables data plan.tables
  let (root, inputs) ← inputs.take plan.root
  inputs.joinAll root plan.joins

def grouped (plan : Plan) (t : Table) : Except ExecutionError Table :=
  match plan.grouping with
  | some g => do
    let t ← g.run t
    runIf plan.having (fun t p => Step.having.run (t.filter p)) t
  | none => .ok t

def project (plan : Plan) (t : Table) : Except ExecutionError Table :=
  Step.project.run (t.project (plan.output.map OutputColumn.renaming))

/-- What the plan shows, before it is sorted. -/
def projected (plan : Plan) (data : Datasets) : Except ExecutionError Table := do
  let t ← plan.joined data
  let t ← runIf plan.filter (fun t p => Step.filter.run (t.filter p)) t
  let t ← plan.grouped t
  plan.project t

/-- The table that the plan constructs, or none if the sort gives up. -/
def execute (plan : Plan) (sorter : Sorter) (data : Datasets) :
    Except ExecutionError (Option Table) := do
  let t ← plan.projected data
  if plan.sort.isEmpty then return some t else Step.sort.run (t.sort sorter plan.sort)

end Plan

end TablePlan
