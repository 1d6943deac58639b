import TablePlan.Table.Basic
import TablePlan.Predicate.Basic

/-!
Rows kept by a condition. A condition has three values on a row, the third being unknown, and a row
is kept when its value is true. Every column that the condition reads must exist, whether or not a
row reaches it.
-/

namespace TablePlan

/-- Truth with a third value, unknown, which is `none`. -/
abbrev Truth := Option Bool

namespace Truth

/-- False wins over unknown, unknown over true. -/
def and : Truth → Truth → Truth
  | some false, _ => some false
  | _, some false => some false
  | some true, some true => some true
  | _, _ => none

/-- True wins over unknown, unknown over false. -/
def or : Truth → Truth → Truth
  | some true, _ => some true
  | _, some true => some true
  | some false, some false => some false
  | _, _ => none

def not (t : Truth) : Truth :=
  t.map Bool.not

end Truth

namespace Operand

/-- The value of an operand on a row; null when the column does not exist. -/
def value (columns : List String) (row : Row) : Operand → Cell
  | .literal l => l.toCell
  | operand => match operand.columnName? with
    | some name => ((columns.findIdx? (· == name)).map row.cell).getD .null
    | none => .null

end Operand

namespace Predicate

mutual

def truth (columns : List String) (row : Row) : Predicate → Truth
  | .and items => truthOfAll columns row items
  | .or items => truthOfAny columns row items
  | .not inner => (truth columns row inner).not
  | .compare left op right =>
    ((left.value columns row).compare (right.value columns row)).map op.holds
  | .isNull operand negated => some ((operand.value columns row).isNull != negated)

def truthOfAll (columns : List String) (row : Row) : List Predicate → Truth
  | [] => some true
  | p :: ps => (truth columns row p).and (truthOfAll columns row ps)

def truthOfAny (columns : List String) (row : Row) : List Predicate → Truth
  | [] => some false
  | p :: ps => (truth columns row p).or (truthOfAny columns row ps)

end

def columnNames (p : Predicate) : List String :=
  p.operands.filterMap Operand.columnName?

end Predicate

namespace Table

def requireColumns (t : Table) : List String → Except TableError Unit
  | [] => .ok ()
  | name :: names => do
    let _ ← t.indexOf name
    t.requireColumns names

def filter (t : Table) (p : Predicate) : Except TableError Table := do
  t.validate
  t.requireColumns p.columnNames
  return ⟨t.columns, t.rows.filter fun row => p.truth t.columns row == some true⟩

end Table

end TablePlan
