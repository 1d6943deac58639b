/-!
Stable sorting routines. A routine knows the elements only by their comparisons, so it is given here
by what it does with their positions. Consistent comparisons have one stable order. On comparisons
that contradict each other a routine may end in any order, or notice and give up.
-/

namespace TablePlan

/-- Whether a position is before another one in a stable sort. -/
def Sorter.StandsBefore {n : Nat} (cmp : Fin n → Fin n → Ordering) (i j : Fin n) : Prop :=
  (cmp i j).then (compare i j) = .lt

/-- A stable sorting routine, with what it promises. -/
structure Sorter where
  /-- The positions in their new order, or none if the routine gives up. -/
  arrange : (n : Nat) → (Fin n → Fin n → Ordering) → Option (List (Fin n))
  perm : ∀ {n cmp order}, arrange n cmp = some order → order.Perm (List.finRange n)
  stable : ∀ {n cmp}, Std.TransCmp cmp →
    ∃ order, arrange n cmp = some order ∧ order.Pairwise (Sorter.StandsBefore cmp)

namespace Sorter

variable {α : Type}

def sort (sorter : Sorter) (cmp : α → α → Ordering) (l : List α) : Option (List α) :=
  let elements := l.toArray
  (sorter.arrange elements.size fun i j => cmp elements[i] elements[j]).map fun order =>
    order.map fun i => elements[i]

end Sorter

end TablePlan
