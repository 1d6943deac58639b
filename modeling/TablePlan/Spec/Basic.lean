import TablePlan.Plan.Basic

/-!
Specs of constructed tables, as they are written: which tables are declared, how they are joined,
what is selected, and the conditions, groups and sort keys as text.
-/

namespace TablePlan

/-- A join condition; without a kind it takes the default one. -/
structure JoinCondition where
  leftAlias : String
  rightAlias : String
  leftKey : String
  rightKey : String
  kind : Option JoinKind
  deriving DecidableEq, Repr

/-- A selected source; without an output name it keeps its own. -/
structure SelectEntry where
  source : String
  outputName : Option String
  deriving DecidableEq, Repr

structure SortCondition where
  column : String
  direction : Direction
  deriving DecidableEq, Repr

structure Spec where
  name : String
  tables : List TableDecl
  joins : List JoinCondition
  select : List SelectEntry
  filter : List String
  group : List String
  having : List String
  sort : List SortCondition
  deriving DecidableEq, Repr

namespace Spec

def table? (spec : Spec) (aliasName : String) : Option TableDecl :=
  findTable? spec.tables aliasName

end Spec

end TablePlan
