import TablePlan.Condition.Meaning
import TablePlan.Spec.Basic

/-!
The conditions of a spec once their texts are read; their columns are still as written. Several
clauses for one condition hold together.
-/

namespace TablePlan

structure SelectClause where
  key : String
  source : ColumnSource
  outputName : Option String

structure Clauses where
  select : List SelectClause
  filter : Option Predicate
  having : Option Predicate

def Predicate.readAll? (clauses : List String) : Except ConditionError (Option Predicate) := do
  return Predicate.conjunction? (← clauses.mapM Predicate.read)

def SelectEntry.read (entry : SelectEntry) : Except ConditionError SelectClause := do
  return ⟨entry.source, ← ColumnSource.read entry.source, entry.outputName⟩

/-- Reads what is selected first, then what filters rows and groups. -/
def Clauses.ofSpec (spec : Spec) : Except ConditionError Clauses := do
  let select ← spec.select.mapM SelectEntry.read
  let filter ← Predicate.readAll? spec.filter
  let having ← Predicate.readAll? spec.having
  return ⟨select, filter, having⟩

end TablePlan
