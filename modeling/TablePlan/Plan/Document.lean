import TablePlan.Plan.Basic
import TablePlan.Json.Value

/-!
Plans as JSON documents. Members stand in a fixed order, an alternative is an object of one member
named for it, and a missing part is null. How the number of a literal is written is a parameter.
-/

namespace TablePlan

namespace Json

def alternative (name : String) (content : Json) : Json :=
  .object [(name, content)]

def ofFloat (value : Float) : Json :=
  .number (Decimal.Layout.document.text value)

end Json

def ColumnRef.toJson (c : ColumnRef) : Json :=
  .object [("alias", .ofOption .string c.aliasName), ("column", .string c.column)]

def AggregateFunction.title : AggregateFunction → String
  | .count => "Count"
  | .sum => "Sum"
  | .avg => "Avg"
  | .min => "Min"
  | .max => "Max"

def AggregateCall.toJson (call : AggregateCall) : Json :=
  .object [("func", .string call.function.title),
    ("arg", .ofOption ColumnRef.toJson call.argument)]

def ColumnSource.toJson : ColumnSource → Json
  | .column ref => .alternative "Column" ref.toJson
  | .aggregate call => .alternative "Aggregate" call.toJson

def Comparison.title : Comparison → String
  | .eq => "Eq"
  | .notEq => "NotEq"
  | .lt => "Lt"
  | .ltEq => "LtEq"
  | .gt => "Gt"
  | .gtEq => "GtEq"

def TableDecl.toJson (t : TableDecl) : Json :=
  .object [("alias", .string t.aliasName), ("physical_name", .string t.physicalName),
    ("kind", .string t.kind.name), ("origin", .ofOption .string t.origin)]

def JoinEdge.toJson (e : JoinEdge) : Json :=
  .object [("left_alias", .string e.leftAlias), ("right_alias", .string e.rightAlias),
    ("left_key", e.leftKey.toJson), ("right_key", e.rightKey.toJson),
    ("join_type", .string e.kind.name)]

def Grouping.toJson (g : Grouping) : Json :=
  .object [("group_by", .array (g.keys.map ColumnRef.toJson)),
    ("aggregates", .array (g.aggregates.map AggregateCall.toJson))]

def OutputColumn.toJson (o : OutputColumn) : Json :=
  .object [("source", o.source.toJson), ("output_name", .string o.name)]

def SortKey.toJson (k : SortKey) : Json :=
  .object [("column", .string k.column), ("direction", .string k.direction.name)]

section Literals

variable (number : Float → Json)

def Literal.toJson : Literal → Json
  | .text value => .alternative "String" (.string value)
  | .number value => .alternative "Number" (number value)
  | .date value => .alternative "Date" (.string value.text)
  | .bool value => .alternative "Bool" (.bool value)
  | .null => .string "Null"

def Operand.toJson : Operand → Json
  | .column ref => .alternative "Column" ref.toJson
  | .literal value => .alternative "Literal" (value.toJson number)
  | .aggregate call => .alternative "Aggregate" call.toJson

mutual

def Predicate.toJson : Predicate → Json
  | .and items => .alternative "And" (.array (Predicate.toJsonAll items))
  | .or items => .alternative "Or" (.array (Predicate.toJsonAll items))
  | .not inner => .alternative "Not" (Predicate.toJson inner)
  | .compare left op right => .alternative "Compare" (.object
      [("left", left.toJson number), ("op", .string op.title), ("right", right.toJson number)])
  | .isNull operand negated => .alternative "IsNull" (.object
      [("operand", operand.toJson number), ("negated", .bool negated)])

def Predicate.toJsonAll : List Predicate → List Json
  | [] => []
  | p :: ps => Predicate.toJson p :: Predicate.toJsonAll ps

end

theorem Predicate.toJsonAll_eq_map (ps : List Predicate) :
    toJsonAll number ps = ps.map (toJson number) := by
  induction ps with
  | nil => rfl
  | cons p ps ih => simp [toJsonAll, ih]

def Plan.toJson (plan : Plan) : Json :=
  .object [("name", .string plan.name), ("root", .string plan.root),
    ("tables", .array (plan.tables.map TableDecl.toJson)),
    ("joins", .array (plan.joins.map JoinEdge.toJson)),
    ("filter", .ofOption (Predicate.toJson number) plan.filter),
    ("aggregation", .ofOption Grouping.toJson plan.grouping),
    ("having", .ofOption (Predicate.toJson number) plan.having),
    ("projection", .array (plan.output.map OutputColumn.toJson)),
    ("sort", .array (plan.sort.map SortKey.toJson))]

end Literals

end TablePlan
