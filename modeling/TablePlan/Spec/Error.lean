import TablePlan.Yaml.Node

/-!
Faults of a spec document, each with the path of the field that is at fault.
-/

namespace TablePlan

inductive Shape where
  | mapping | sequence | string | stringKey
  deriving DecidableEq, Repr

namespace Shape

def name : Shape → String
  | .mapping => "mapping"
  | .sequence => "sequence"
  | .string => "string"
  | .stringKey => "string key"

end Shape

inductive ValueFault where
  | emptyText
  | emptyAlias
  | dottedAlias
  | noTables
  | noColumns
  | tableKind (found : String)
  | joinKind (found : String)
  | joinParts (found : Nat)
  | sortParts (found : Nat)
  | direction (found : String)
  deriving DecidableEq, Repr

namespace ValueFault

def message : ValueFault → String
  | .emptyText => "must not be empty"
  | .emptyAlias => "alias must not be empty"
  | .dottedAlias => "alias must not contain '.'"
  | .noTables => "at least one table must be declared"
  | .noColumns => "at least one column must be selected"
  | .tableKind found => s!"expected 'source' or 'model', found '{found}'"
  | .joinKind found => s!"unknown join type '{found}'"
  | .joinParts found =>
    s!"expected [left_alias, right_alias, left_key, right_key], found {found} elements"
  | .sortParts found => s!"expected [column, direction], found {found} elements"
  | .direction found => s!"expected 'asc' or 'desc', found '{found}'"

end ValueFault

inductive SpecError where
  | malformed
  | missingField (path : String)
  | invalidType (path : String) (expected : Shape) (found : Yaml.Kind)
  | invalidValue (path : String) (fault : ValueFault)
  | unknownField (path : String)
  deriving DecidableEq, Repr

namespace SpecError

def message : SpecError → String
  | .malformed => "Invalid YAML"
  | .missingField path => s!"Missing required field '{path}'"
  | .invalidType path expected found =>
    s!"Invalid type for '{path}': expected {expected.name}, found {found.name}"
  | .invalidValue path fault => s!"Invalid value for '{path}': {fault.message}"
  | .unknownField path => s!"Unknown field '{path}'"

def path? : SpecError → Option String
  | .malformed => none
  | .missingField path | .invalidType path _ _ | .invalidValue path _ | .unknownField path =>
    some path

end SpecError

end TablePlan
