import TablePlan.Condition.Clauses
import TablePlan.Plan.Assembly
import TablePlan.Plan.JoinOrder
import TablePlan.Plan.Output
import TablePlan.Resolution.Basic
import TablePlan.Resolution.Sorting
import TablePlan.Spec.Reader

/-!
Specs compiled to plans. The conditions are read first, then names are resolved, joins ordered,
output columns and sort keys found, and all of it put together; the first error of these steps is
the answer.
-/

namespace TablePlan

inductive CompileError where
  | spec (error : SpecError)
  | condition (error : ConditionError)
  | resolution (error : ResolutionError)
  | plan (error : PlanError)
  | output (error : OutputError)

namespace CompileError

def cause : CompileError → String
  | .spec error => error.message
  | .condition error => error.message
  | .resolution error => error.message
  | .plan error => error.message
  | .output error => error.message

def message (e : CompileError) : String :=
  kind ++ " error: " ++ e.cause
where
  kind := match e with
    | .spec _ => "Config"
    | .condition _ => "Condition"
    | .resolution _ => "Resolution"
    | .plan _ => "Planning"
    | .output _ => "Projection"

end CompileError

namespace ResolvedSpec

def joinOrder (spec : ResolvedSpec) : Except PlanError JoinOrder :=
  JoinOrder.ofEdges (spec.tables.map TableDecl.aliasName) spec.joins

end ResolvedSpec

namespace Spec

def resolved (spec : Spec) (schemas : Schemas) (default : JoinKind) :
    Except CompileError ResolvedSpec := do
  let clauses ← (Clauses.ofSpec spec).mapError .condition
  (spec.resolve schemas default clauses).mapError .resolution

def compile (spec : Spec) (schemas : Schemas) (default : JoinKind) :
    Except CompileError Plan := do
  let resolved ← spec.resolved schemas default
  let order ← resolved.joinOrder.mapError .plan
  let output ← resolved.outputColumns.mapError .output
  let sort ← (resolved.sortKeys output).mapError .resolution
  (resolved.assemble order output sort).mapError .plan

end Spec

namespace Plan

def ofDocument (document : Yaml.Node) (schemas : Schemas) (default : JoinKind) :
    Except CompileError Plan := do
  let spec ← (Spec.ofNode document).mapError .spec
  spec.compile schemas default

def ofText (text : String) (schemas : Schemas) (default : JoinKind) : Except CompileError Plan := do
  let document ← (Spec.readDocument text).mapError .spec
  ofDocument document schemas default

end Plan

end TablePlan
