import TablePlan.Proofs.Success
import TablePlan.Table.Filter
import Mathlib.Tactic.Common

/-!
The truth of conditions by the values of their operands, apart from rows and columns. A conjunction
of clauses is true exactly when each clause is.
-/

namespace TablePlan

theorem Truth.and_eq_true {s t : Truth} : s.and t = some true ↔ s = some true ∧ t = some true := by
  obtain _ | _ | _ := s <;> obtain _ | _ | _ := t <;> simp [Truth.and]

/-- The value of an operand, given the cells of references; aggregates have none. -/
def Operand.valueOf (cell : ColumnRef → Cell) : Operand → Cell
  | .column ref => cell ref
  | .literal l => l.toCell
  | .aggregate _ => .null

namespace Predicate

mutual

def truthBy (value : Operand → Cell) : Predicate → Truth
  | .and items => truthOfAllBy value items
  | .or items => truthOfAnyBy value items
  | .not inner => (truthBy value inner).not
  | .compare left op right => ((value left).compare (value right)).map op.holds
  | .isNull operand negated => some ((value operand).isNull != negated)

def truthOfAllBy (value : Operand → Cell) : List Predicate → Truth
  | [] => some true
  | p :: ps => (truthBy value p).and (truthOfAllBy value ps)

def truthOfAnyBy (value : Operand → Cell) : List Predicate → Truth
  | [] => some false
  | p :: ps => (truthBy value p).or (truthOfAnyBy value ps)

end

variable {columns : List String} {row : Row} {value : Operand → Cell}

mutual

theorem truth_eq_truthBy : ∀ {p : Predicate},
    (∀ operand ∈ p.operands, operand.value columns row = value operand) →
      p.truth columns row = p.truthBy value
  | .and _, agree => truthOfAll_eq_truthOfAllBy agree
  | .or _, agree => truthOfAny_eq_truthOfAnyBy agree
  | .not inner, agree => by
    have same : inner.truth columns row = inner.truthBy value := truth_eq_truthBy agree
    rw [truth, truthBy, same]
  | .compare left op right, agree => by
    rw [truth, truthBy, agree left (by simp [operands]), agree right (by simp [operands])]
  | .isNull operand negated, agree => by
    rw [truth, truthBy, agree operand (by simp [operands])]

theorem truthOfAll_eq_truthOfAllBy : ∀ {ps : List Predicate},
    (∀ operand ∈ operandsOfAll ps, operand.value columns row = value operand) →
      truthOfAll columns row ps = truthOfAllBy value ps
  | [], _ => rfl
  | p :: ps, agree => by
    rw [operandsOfAll, List.forall_mem_append] at agree
    rw [truthOfAll, truthOfAllBy, truth_eq_truthBy agree.1, truthOfAll_eq_truthOfAllBy agree.2]

theorem truthOfAny_eq_truthOfAnyBy : ∀ {ps : List Predicate},
    (∀ operand ∈ operandsOfAll ps, operand.value columns row = value operand) →
      truthOfAny columns row ps = truthOfAnyBy value ps
  | [], _ => rfl
  | p :: ps, agree => by
    rw [operandsOfAll, List.forall_mem_append] at agree
    rw [truthOfAny, truthOfAnyBy, truth_eq_truthBy agree.1, truthOfAny_eq_truthOfAnyBy agree.2]

end

theorem truth_congr {columns' : List String} {row' : Row} {p : Predicate}
    (agree : ∀ operand ∈ p.operands, operand.value columns' row' = operand.value columns row) :
    p.truth columns' row' = p.truth columns row :=
  (truth_eq_truthBy agree).trans (truth_eq_truthBy fun _ _ => rfl).symm

theorem truthOfAllBy_eq_true {ps : List Predicate} :
    truthOfAllBy value ps = some true ↔ ∀ p ∈ ps, p.truthBy value = some true := by
  induction ps with
  | nil => simp [truthOfAllBy]
  | cons p ps ih => rw [truthOfAllBy, Truth.and_eq_true, ih, List.forall_mem_cons]

theorem forall_conjuncts {p : Predicate} :
    (∀ q ∈ p.conjuncts, q.truthBy value = some true) ↔ p.truthBy value = some true := by
  cases p with
  | and items => exact truthOfAllBy_eq_true.symm
  | _ => simp [conjuncts]

theorem forall_conjunction? {clauses : List Predicate} :
    (∀ p ∈ conjunction? clauses, p.truthBy value = some true) ↔
      ∀ p ∈ clauses, p.truthBy value = some true := by
  have flat : (∀ p ∈ clauses, p.truthBy value = some true) ↔
      ∀ p ∈ clauses.flatMap conjuncts, p.truthBy value = some true := by
    simp only [List.forall_mem_flatMap, forall_conjuncts]
  rw [flat]
  unfold conjunction?
  split
  · rename_i none
    simp [none]
  · rename_i single
    simp [single]
  · rw [← truthOfAllBy_eq_true]
    simp [truthBy]

end Predicate

end TablePlan
