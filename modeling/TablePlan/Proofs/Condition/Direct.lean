import TablePlan.Condition.Meaning
import TablePlan.Proofs.Table.Row
import TablePlan.Table.Filter

/-!
Expressions by themselves: the cell or the truth that one has on a row, and its leaves and symbols
from left to right. Nothing here asks whether an expression is a condition; where it is none, its
cell is null and its truth unknown.
-/

namespace TablePlan

open Condition

/-- What stands between the operands of a condition. -/
inductive Condition.Symbol where
  | connective (c : Connective)
  | not
  | compare (op : Comparison)
  | nullTest (negated : Bool)
  deriving DecidableEq, Repr

namespace Predicate

mutual

def symbols : Predicate → List Symbol
  | .and items => [.connective .and].intercalate (symbolsOfEach items)
  | .or items => [.connective .or].intercalate (symbolsOfEach items)
  | .not inner => .not :: inner.symbols
  | .compare _ op _ => [.compare op]
  | .isNull _ negated => [.nullTest negated]

def symbolsOfEach : List Predicate → List (List Symbol)
  | [] => []
  | p :: ps => p.symbols :: symbolsOfEach ps

end

theorem symbolsOfEach_append (ps qs : List Predicate) :
    symbolsOfEach (ps ++ qs) = symbolsOfEach ps ++ symbolsOfEach qs := by
  induction ps with
  | nil => rfl
  | cons p ps ih => simp [symbolsOfEach, ih]

end Predicate

namespace Condition

def Value.cell : Value → Cell
  | .number digits _ => ((Decimal.floatOfText? digits).map Cell.float).getD .null
  | .text value => (textLiteral value).toCell
  | .bool value => .bool value
  | .null | .other _ => .null

namespace Expr

def columnText : Expr → String
  | .nested inner => inner.columnText
  | .name first [] => first.value
  | .name aliasName [column] => aliasName.value ++ "." ++ column.value
  | _ => ""

def labelText (path : List Ident) (argument : String) : String :=
  ((AggregateFunction.ofName? (pathText path)).map AggregateFunction.name).getD ""
    ++ "(" ++ argument ++ ")"

variable (columns : List String) (row : Row)

/-- The cell that an expression stands for. A name in double quotes is a text, any other name is a
column, and a call is the column of its label. -/
def cell : Expr → Cell
  | .nested inner => inner.cell
  | .name first [] =>
    if first.quote = some '"' then (textLiteral first.value).toCell
    else row.named columns first.value
  | .name aliasName [column] => row.named columns (aliasName.value ++ "." ++ column.value)
  | .value v => v.cell
  | .signed negative inner =>
    match inner.cell with
    | .float x => .float (if negative then -x else x)
    | other => other
  | .call path argument _ => row.named columns (labelText path argument.columnText)
  | .callOver path _ _ => row.named columns (labelText path "*")
  | _ => .null

/-- The three-valued truth of an expression. A bare column holds when it is true. -/
def truth : Expr → Truth
  | .nested inner => inner.truth
  | .binary left (.connective .and) right => left.truth.and right.truth
  | .binary left (.connective .or) right => left.truth.or right.truth
  | .binary left (.compare op) right =>
    ((left.cell columns row).compare (right.cell columns row)).map op.holds
  | .not inner => inner.truth.not
  | .isNull inner negated => some ((inner.cell columns row).isNull != negated)
  | .name first rest =>
    (((Expr.name first rest).cell columns row).compare (.bool true)).map Comparison.eq.holds
  | _ => none

/-- The expressions that stand as operands, from left to right; a bare column comes with the value
that it is compared with. -/
def leaves : Expr → List Expr
  | .nested inner | .not inner => inner.leaves
  | .binary left (.connective _) right => left.leaves ++ right.leaves
  | .binary left _ right => [left, right]
  | .isNull inner _ => [inner]
  | .name first rest => [.name first rest, .value (.bool true)]
  | _ => []

def symbols : Expr → List Symbol
  | .nested inner => inner.symbols
  | .not inner => .not :: inner.symbols
  | .binary left (.connective c) right => left.symbols ++ .connective c :: right.symbols
  | .binary _ (.compare op) _ => [.compare op]
  | .isNull _ negated => [.nullTest negated]
  | .name _ _ => [.compare .eq]
  | _ => []

/-- The operand that a leaf writes. A sign belongs to the number after it, and a call is one
operand. -/
inductive Writes : Expr → Operand → Prop
  | nested {inner : Expr} {o : Operand} (inside : inner.Writes o) : (nested inner).Writes o
  | quoted {first : Ident} (double : first.quote = some '"') :
    (name first []).Writes (.literal (textLiteral first.value))
  | bare {first : Ident} (other : first.quote ≠ some '"') :
    (name first []).Writes (.column (.bare first.value))
  | qualified {aliasName column : Ident} :
    (name aliasName [column]).Writes (.column (.qualified aliasName.value column.value))
  | text {s : String} : (value (.text s)).Writes (.literal (textLiteral s))
  | number {digits : String} {long : Bool} {x : Float}
    (reads : Decimal.floatOfText? digits = some x) :
    (value (.number digits long)).Writes (.literal (.number x))
  | bool {b : Bool} : (value (.bool b)).Writes (.literal (.bool b))
  | null : (value .null).Writes (.literal .null)
  | signed {negative : Bool} {inner : Expr} {x : Float}
    (inside : inner.Writes (.literal (.number x))) :
    (signed negative inner).Writes (.literal (.number (if negative then -x else x)))
  | call {path : List Ident} {argument : Expr} {modifiers : CallModifiers}
    {function : AggregateFunction} {ref : ColumnRef}
    (named : AggregateFunction.ofName? (pathText path) = some function)
    (inside : argument.Writes (.column ref)) :
    (call path argument modifiers).Writes (.aggregate ⟨function, some ref⟩)
  | rows {path : List Ident} {modifiers : CallModifiers}
    (named : AggregateFunction.ofName? (pathText path) = some .count) :
    (callOver path .rows modifiers).Writes (.aggregate ⟨.count, none⟩)

theorem Writes.columnText_eq {e : Expr} {ref : ColumnRef} (writes : e.Writes (.column ref)) :
    e.columnText = ref.text := by
  generalize named : Operand.column ref = o at writes
  induction writes with
  | nested _ ih => exact ih named
  | bare _ =>
    cases named
    rfl
  | qualified =>
    cases named
    rfl
  | _ => cases named

theorem Writes.cell_eq {e : Expr} {o : Operand} (writes : e.Writes o) :
    e.cell columns row = o.value columns row := by
  induction writes with
  | nested _ ih => exact ih
  | quoted double => exact if_pos double
  | bare other => exact if_neg other
  | qualified => rfl
  | text => rfl
  | number reads => rw [cell, Value.cell, reads]; rfl
  | bool => rfl
  | null => rfl
  | signed _ ih => rw [cell, ih]; rfl
  | call named inside => rw [cell, labelText, named, inside.columnText_eq]; rfl
  | rows named => rw [cell, labelText, named]; rfl

end Expr

end Condition

end TablePlan
