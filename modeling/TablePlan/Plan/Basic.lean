import TablePlan.Plan.Join

/-!
Query plans: where the rows come from, how tables are joined, filtered, grouped, projected and
sorted. A plan is data; nothing here runs it.
-/

namespace TablePlan

/-- Whether a table is a raw input or the result of another spec. -/
inductive TableKind where
  | source | model
  deriving DecidableEq, Repr

namespace TableKind

def ofText? : String → Option TableKind
  | "source" => some .source
  | "model" => some .model
  | _ => none

def name : TableKind → String
  | .source => "source"
  | .model => "model"

end TableKind

/-- A declared table: `aliasName` names it inside the spec, `physicalName` among the datasets. -/
structure TableDecl where
  aliasName : String
  physicalName : String
  kind : TableKind
  origin : Option String
  deriving DecidableEq, Repr

inductive Direction where
  | asc | desc
  deriving DecidableEq, Repr

namespace Direction

def ofText? (s : String) : Option Direction :=
  match s.toLower with
  | "asc" | "ascending" => some .asc
  | "desc" | "descending" => some .desc
  | _ => none

def name : Direction → String
  | .asc => "asc"
  | .desc => "desc"

def apply : Direction → Ordering → Ordering
  | .asc, order => order
  | .desc, order => order.swap

end Direction

structure OutputColumn where
  source : ColumnSource
  name : String
  deriving DecidableEq, Repr

structure SortKey where
  column : String
  direction : Direction
  deriving DecidableEq, Repr

structure Grouping where
  keys : List ColumnRef
  aggregates : List AggregateCall
  deriving DecidableEq, Repr

namespace Grouping

def columnNames (g : Grouping) : List String :=
  g.keys.map ColumnRef.text ++ g.aggregates.map AggregateCall.label

end Grouping

structure Plan where
  name : String
  root : String
  tables : List TableDecl
  /-- Each step joins one more table, on its right, to all that is joined so far. -/
  joins : List JoinEdge
  filter : Option Predicate
  grouping : Option Grouping
  having : Option Predicate
  output : List OutputColumn
  sort : List SortKey

/-- The first table declared under an alias. -/
def findTable? (tables : List TableDecl) (aliasName : String) : Option TableDecl :=
  tables.find? fun t => t.aliasName == aliasName

namespace Plan

def table? (plan : Plan) (aliasName : String) : Option TableDecl :=
  findTable? plan.tables aliasName

def outputNames (plan : Plan) : List String :=
  plan.output.map OutputColumn.name

end Plan

end TablePlan
