import TablePlan.Table.Join
import Mathlib.Tactic.Common

/-!
The two equalities of cells. Joins match cells by their keys, conditions compare them. Both agree,
except that a comparison rounds integers next to doubles and reads texts next to dates.
-/

namespace TablePlan

theorem Calendar.Date.compare_eq_iff {a b : Calendar.Date} : compare a b = .eq ↔ a = b := by
  have parts : compare a b = .eq ↔ a.year = b.year ∧ a.month = b.month ∧ a.day = b.day := by
    change a.compare b = .eq ↔ _
    simp only [Date.compare, Ordering.then_eq_eq, Std.LawfulEqOrd.compare_eq_iff_eq]
  rw [parts]
  cases a
  cases b
  simp

namespace Cell

theorem matches_iff {a b : Cell} :
    a.matches b = true ↔ a.isNull = false ∧ b.isNull = false ∧ a.key = b.key := by
  simp [Cell.matches, and_assoc]

theorem matches_comm (a b : Cell) : a.matches b = b.matches a := by
  unfold Cell.matches
  rw [Bool.and_comm (!a.isNull), BEq.comm]

/-- Cells that compare across a conversion: numbers that are not both integers, and a date and a
text. -/
def converts : Cell → Cell → Bool
  | .float _, .float _ | .float _, .int _ | .int _, .float _ => true
  | .date _, .text _ | .text _, .date _ => true
  | _, _ => false

theorem matches_iff_compare {a b : Cell} (direct : a.converts b = false) :
    a.matches b = true ↔ a.compare b = some .eq := by
  cases a <;> cases b <;>
    simp [converts, Cell.matches, isNull, key, compare, Int64.toInt_inj,
      Calendar.Date.compare_eq_iff] at direct ⊢
  -- What is left: a double has the key of an integer or of its bits, never one of another kind.
  all_goals
    split <;> simp

end Cell

/-- Whether the two equalities of cells may trade places: when one pair matches and another
compares as equal, then also the other way round. -/
def Exchangeable (pairs : Cell → Cell → Prop) : Prop :=
  ∀ a b c d, pairs a b → pairs c d → a.matches b = true → c.compare d = some .eq →
    a.compare b = some .eq ∧ c.matches d = true

theorem exchangeable_iff {pairs : Cell → Cell → Prop} {a b : Cell} (pair : pairs a b)
    (matched : a.matches b = true) (equal : a.compare b = some .eq) :
    Exchangeable pairs ↔ ∀ c d, pairs c d → (c.matches d = true ↔ c.compare d = some .eq) := by
  constructor
  · intro exchangeable c d pair'
    constructor
    · intro matched'
      exact (exchangeable c d a b pair' pair matched' equal).1
    · intro equal'
      exact (exchangeable a b c d pair pair' matched equal').2
  · intro agree a b c d pair pair' matched equal
    exact ⟨(agree a b pair).1 matched, (agree c d pair').2 equal⟩

theorem exchangeable_direct : Exchangeable fun a b => a.converts b = false := by
  intro a b c d direct direct' matched equal
  exact ⟨(Cell.matches_iff_compare direct).1 matched, (Cell.matches_iff_compare direct').2 equal⟩

end TablePlan
