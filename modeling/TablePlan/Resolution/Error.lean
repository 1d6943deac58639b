import TablePlan.ColumnRef

/-!
Names of a spec that mean nothing, or more than one thing, with the place where they stand.
-/

namespace TablePlan

open Text (joined)

inductive Place where
  | select (index : Nat) (key : String)
  | filter
  | having
  | group (index : Nat)
  | join (index : Nat)
  | sort (index : Nat)
  deriving DecidableEq, Repr

namespace Place

def text : Place → String
  | .select index key => s!"select[{index}] '{key}'"
  | .filter => "filter_condition"
  | .having => "having_condition"
  | .group index => s!"group_condition[{index}]"
  | .join index => s!"join_conditions[{index}]"
  | .sort index => s!"sort_condition[{index}]"

end Place

inductive ResolutionError where
  | unknownAlias (aliasName : String) (place : Place)
  | unknownColumn (column : ColumnRef) (place : Place)
  | ambiguousColumn (column : String) (aliases : List String) (place : Place)
  | missingSchema (aliasName tableName : String)
  | keyAliasMismatch (key expectedAlias : String) (place : Place)
  | unknownSortColumn (column : String)
  deriving DecidableEq, Repr

namespace ResolutionError

def message : ResolutionError → String
  | .unknownAlias aliasName place => s!"Unknown alias '{aliasName}' in {place.text}"
  | .unknownColumn column place => s!"Unknown column '{column.text}' in {place.text}"
  | .ambiguousColumn column aliases place =>
    let owners := joined ", " aliases
    s!"Ambiguous column '{column}' in {place.text}: found in {owners}"
  | .missingSchema aliasName tableName =>
    s!"No schema available for table '{tableName}' (alias '{aliasName}')"
  | .keyAliasMismatch key expectedAlias place =>
    s!"Join key '{key}' in {place.text} must reference alias '{expectedAlias}'"
  | .unknownSortColumn column => s!"Unknown sort column '{column}': not an output column"

end ResolutionError

end TablePlan
