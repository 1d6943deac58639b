import TablePlan.Predicate.Operand

/-!
Condition trees: connectives over comparisons and null tests. The operands of a tree are listed
from left to right, and mapping visits exactly these in that order.
-/

namespace TablePlan

inductive Comparison where
  | eq | notEq | lt | ltEq | gt | gtEq
  deriving DecidableEq, Repr

namespace Comparison

def symbol : Comparison → String
  | .eq => "=="
  | .notEq => "!="
  | .lt => "<"
  | .ltEq => "<="
  | .gt => ">"
  | .gtEq => ">="

def holds : Comparison → Ordering → Bool
  | .eq, order => order == .eq
  | .notEq, order => order != .eq
  | .lt, order => order == .lt
  | .ltEq, order => order != .gt
  | .gt, order => order == .gt
  | .gtEq, order => order != .lt

end Comparison

inductive Predicate where
  | and (items : List Predicate)
  | or (items : List Predicate)
  | not (inner : Predicate)
  | compare (left : Operand) (op : Comparison) (right : Operand)
  | isNull (operand : Operand) (negated : Bool)

namespace Predicate

mutual

def operands : Predicate → List Operand
  | .and items => operandsOfAll items
  | .or items => operandsOfAll items
  | .not inner => inner.operands
  | .compare left _ right => [left, right]
  | .isNull operand _ => [operand]

def operandsOfAll : List Predicate → List Operand
  | [] => []
  | p :: ps => p.operands ++ operandsOfAll ps

end

theorem operandsOfAll_eq_flatMap (ps : List Predicate) :
    operandsOfAll ps = ps.flatMap operands := by
  induction ps with
  | nil => rfl
  | cons p ps ih => simp [operandsOfAll, ih]

def aggregates (p : Predicate) : List AggregateCall :=
  p.operands.filterMap Operand.aggregate?

section Map

variable {m : Type → Type} [Monad m]

mutual

/-- Rebuilds the tree with each operand replaced by what `f` makes of it, from left to right. -/
def mapOperandsM (f : Operand → m Operand) : Predicate → m Predicate
  | .and items => return .and (← mapAllM f items)
  | .or items => return .or (← mapAllM f items)
  | .not inner => return .not (← mapOperandsM f inner)
  | .compare left op right => do
    let left ← f left
    let right ← f right
    return .compare left op right
  | .isNull operand negated => return .isNull (← f operand) negated

def mapAllM (f : Operand → m Operand) : List Predicate → m (List Predicate)
  | [] => return []
  | p :: ps => do
    let p ← mapOperandsM f p
    let ps ← mapAllM f ps
    return p :: ps

end

end Map

/-- The clauses that a clause stands for in a conjunction: a conjunction stands for its members. -/
def conjuncts : Predicate → List Predicate
  | .and items => items
  | p => [p]

/-- All of the clauses together; none for no clause, and a single clause stands alone. -/
def conjunction? (clauses : List Predicate) : Option Predicate :=
  match clauses.flatMap conjuncts with
  | [] => none
  | [p] => some p
  | ps => some (.and ps)

mutual

def text : Predicate → String
  | .and items => "(" ++ Text.joined " AND " (textOfAll items) ++ ")"
  | .or items => "(" ++ Text.joined " OR " (textOfAll items) ++ ")"
  | .not inner => "NOT " ++ inner.text
  | .compare left op right => left.text ++ " " ++ op.symbol ++ " " ++ right.text
  | .isNull operand negated => operand.text ++ (if negated then " IS NOT NULL" else " IS NULL")

def textOfAll : List Predicate → List String
  | [] => []
  | p :: ps => p.text :: textOfAll ps

end

theorem textOfAll_eq_map (ps : List Predicate) : textOfAll ps = ps.map text := by
  induction ps with
  | nil => rfl
  | cons p ps ih => simp [textOfAll, ih]

end Predicate

end TablePlan
