import TablePlan.Predicate.Operand
import TablePlan.Calendar.Reading

/-!
Cells of tables. Comparison is partial: nulls and cells of different kinds do not compare, numbers
of both kinds compare as doubles, and a text compares with a date as the date that it reads as.
Keys decide which cells match in joins and groups.
-/

namespace TablePlan

open Calendar (Date)
open Decimal (Binary64)

inductive Cell where
  | null
  | bool (value : Bool)
  | int (value : Int64)
  | float (value : Float)
  | date (value : Date)
  | text (value : String)
  deriving Inhabited

inductive CellKey where
  | null
  | bool (value : Bool)
  | int (value : Int64)
  | bits (value : UInt64)
  | date (value : Date)
  | text (value : String)
  deriving DecidableEq, Hashable

/-- The order of two doubles; none when one of them is not a number. -/
def compareFloats (a b : Float) : Option Ordering :=
  if a < b then some .lt
  else if a == b then some .eq
  else if b < a then some .gt
  else none

namespace Cell

def isNull : Cell → Bool
  | null => true
  | _ => false

def toFloat? : Cell → Option Float
  | .int n => some (Float.ofInt n.toInt)
  | .float x => some x
  | _ => none

/-- A comparison of two cells; none when they do not compare. -/
def compare : Cell → Cell → Option Ordering
  | .int a, .int b => some (Ord.compare a.toInt b.toInt)
  | .int a, .float b => compareFloats (Float.ofInt a.toInt) b
  | .float a, .int b => compareFloats a (Float.ofInt b.toInt)
  | .float a, .float b => compareFloats a b
  | .text a, .text b => some (Ord.compare a b)
  | .bool a, .bool b => some (Ord.compare a b)
  | .date a, .date b => some (Ord.compare a b)
  | .date a, .text b => (Date.ofText? .beforeNumbers b).map (Ord.compare a)
  | .text a, .date b => (Date.ofText? .beforeNumbers a).map (Ord.compare · b)
  | _, _ => none

/-- The key of a cell. An integral double within 64 bits has the key of that integer. -/
def key : Cell → CellKey
  | .null => .null
  | .bool b => .bool b
  | .int n => .int n
  | .float x => match (Binary64.ofFloat x).toInt64? with
    | some n => .int n
    | none => .bits x.toBits
  | .date d => .date d
  | .text s => .text s

def toText : Cell → String
  | .null => "NULL"
  | .bool b => toString b
  | .int n => toString n.toInt
  | .float x => Decimal.Layout.plain.text x
  | .date d => d.text
  | .text s => s

theorem compare_null_left (c : Cell) : compare null c = none := by
  cases c <;> rfl

theorem compare_null_right (c : Cell) : compare c null = none := by
  cases c <;> rfl

end Cell

namespace Literal

def toCell : Literal → Cell
  | .text s => .text s
  | .number x => .float x
  | .date d => .date d
  | .bool b => .bool b
  | .null => .null

end Literal

end TablePlan
