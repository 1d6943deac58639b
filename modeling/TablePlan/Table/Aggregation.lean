import TablePlan.Table.Basic

/-!
Aggregates of a list of cells. Nulls do not count; sums of integers wrap within 64 bits, and a sum
with a double in it is the sum of doubles in row order.
-/

namespace TablePlan

/-- A running sum in both kinds of arithmetic. -/
structure Total where
  ints : Int64
  floats : Float
  allInts : Bool

namespace Total

def zero : Total := ⟨0, 0, true⟩

def add? (t : Total) : Cell → Option Total
  | .int n => some ⟨t.ints + n, t.floats + Float.ofInt n.toInt, t.allInts⟩
  | .float x => some ⟨t.ints, t.floats + x, false⟩
  | _ => none

def sum (t : Total) : Cell :=
  if t.allInts then .int t.ints else .float t.floats

def mean (t : Total) (count : Nat) : Cell :=
  .float (t.floats / Float.ofNat count)

end Total

namespace AggregateFunction

def total (f : AggregateFunction) : (start : Total) → List Cell → Except TableError Total
  | start, [] => .ok start
  | start, cell :: cells => match start.add? cell with
    | some next => f.total next cells
    | none => .error (.typeMismatch f cell)

/-- The cell that stays last when each cell that is ordered `wins` against the best replaces it. -/
def extreme (f : AggregateFunction) (wins : Ordering) : (best : Cell) → List Cell →
    Except TableError Cell
  | best, [] => .ok best
  | best, cell :: cells => match cell.compare best with
    | some order => f.extreme wins (if order = wins then cell else best) cells
    | none => .error (.typeMismatch f cell)

def aggregate (f : AggregateFunction) (cells : List Cell) : Except TableError Cell :=
  let present := cells.filter fun cell => !cell.isNull
  match f, present with
  | .count, _ => .ok (.int (Int64.ofNat present.length))
  | _, [] => .ok .null
  | .sum, _ => (f.total .zero present).map Total.sum
  | .avg, _ => (f.total .zero present).map fun t => t.mean present.length
  | .min, first :: rest => f.extreme .lt first rest
  | .max, first :: rest => f.extreme .gt first rest

end AggregateFunction

end TablePlan
