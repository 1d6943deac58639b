import TablePlan.Resolution.Scope
import TablePlan.Condition.Clauses
import TablePlan.Spec.Basic

/-!
Specs with every alias and column bound to a declared table. A plain selected column that several
tables have stays ambiguous; in `having` a bare name may also be an output name.
-/

namespace TablePlan

inductive SelectSource where
  | resolved (source : ColumnSource)
  | ambiguous (column : String) (aliases : List String)
  deriving DecidableEq, Repr

structure ResolvedSelect where
  key : String
  source : SelectSource
  outputName : Option String
  deriving DecidableEq, Repr

namespace ResolvedSelect

def aggregate? (entry : ResolvedSelect) : Option AggregateCall :=
  match entry.source with
  | .resolved (.aggregate call) => some call
  | _ => none

def sourceNamed? (name : String) (entry : ResolvedSelect) : Option ColumnSource :=
  match entry.source with
  | .resolved source => if entry.outputName = some name then some source else none
  | .ambiguous _ _ => none

end ResolvedSelect

structure ResolvedSpec where
  name : String
  tables : List TableDecl
  joins : List JoinEdge
  select : List ResolvedSelect
  filter : Option Predicate
  group : List ColumnRef
  having : Option Predicate
  sort : List SortCondition
  scope : Scope

namespace ResolvedSpec

/-- The calls in `select` and `having`, each at its first use. -/
def aggregates (spec : ResolvedSpec) : List AggregateCall :=
  let calls := spec.select.filterMap ResolvedSelect.aggregate?
    ++ (spec.having.map Predicate.aggregates).getD []
  calls.foldl (fun seen call => if call ∈ seen then seen else seen ++ [call]) []

def isAggregated (spec : ResolvedSpec) : Bool :=
  !spec.group.isEmpty || !spec.aggregates.isEmpty

end ResolvedSpec

namespace Scope

def join (scope : Scope) (default : JoinKind) (index : Nat) (c : JoinCondition) :
    Except ResolutionError JoinEdge := do
  let place := Place.join index
  scope.requireAlias place c.leftAlias
  scope.requireAlias place c.rightAlias
  let leftKey ← scope.joinKey place c.leftAlias c.leftKey
  let rightKey ← scope.joinKey place c.rightAlias c.rightKey
  return {
    leftAlias := c.leftAlias, rightAlias := c.rightAlias, leftKey, rightKey
    kind := c.kind.getD default }

def selectSource (scope : Scope) (place : Place) : ColumnSource →
    Except ResolutionError SelectSource
  | .aggregate call => return .resolved (.aggregate (← scope.aggregate place call))
  | .column ref =>
    let owners := scope.owners ref.column
    if ref.aliasName.isNone && 1 < owners.length then return .ambiguous ref.column owners
    else do return .resolved (.column (← scope.column place ref))

def selectClause (scope : Scope) (index : Nat) (clause : SelectClause) :
    Except ResolutionError ResolvedSelect := do
  let source ← scope.selectSource (.select index clause.key) clause.source
  return { key := clause.key, source, outputName := clause.outputName }

/-- An operand of `having`: a bare name that is an output name stands for its source. -/
def havingOperand (scope : Scope) (select : List ResolvedSelect) (operand : Operand) :
    Except ResolutionError Operand :=
  match operand with
  | .column ⟨none, name⟩ => match select.findSome? (ResolvedSelect.sourceNamed? name) with
    | some source => .ok source.toOperand
    | none => scope.operand .having operand
  | _ => scope.operand .having operand

end Scope

def Predicate.resolve? (f : Operand → Except ResolutionError Operand) (p : Option Predicate) :
    Except ResolutionError (Option Predicate) :=
  match p with
  | some p => return some (← p.mapOperandsM f)
  | none => return none

namespace Spec

def resolve (spec : Spec) (schemas : Schemas) (default : JoinKind) (clauses : Clauses) :
    Except ResolutionError ResolvedSpec := do
  let scope ← Scope.ofTables schemas spec.tables
  let joins ← spec.joins.zipIdx.mapM fun (c, i) => scope.join default i c
  let select ← clauses.select.zipIdx.mapM fun (c, i) => scope.selectClause i c
  let filter ← Predicate.resolve? (scope.operand .filter) clauses.filter
  let group ← spec.group.zipIdx.mapM fun (text, i) => scope.column (.group i) (.parse text)
  let having ← Predicate.resolve? (scope.havingOperand select) clauses.having
  return {
    name := spec.name, tables := spec.tables, joins, select, filter, group, having
    sort := spec.sort, scope }

end Spec

end TablePlan
