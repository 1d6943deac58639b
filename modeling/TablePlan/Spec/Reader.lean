import TablePlan.Spec.Basic
import TablePlan.Spec.Error
import TablePlan.Text.Blank
import TablePlan.Yaml.Reader

/-!
Specs read from YAML documents. Texts are trimmed, keys are compared without the blanks around them
when unknown ones are rejected, and a null section counts as absent.
-/

namespace TablePlan

open Yaml (Node)
open Text (trim)

namespace Spec

abbrev Members := List (Node × Node)

def sectionNames : List String :=
  ["constructed_table_name", "dependencies", "join_conditions", "select", "filter_condition",
    "group_condition", "having_condition", "sort_condition"]

def tableFieldNames : List String :=
  ["table_name", "type", "source"]

def readMapping (path : String) : Node → Except SpecError Members
  | .mapping members => .ok members
  | node => .error (.invalidType path .mapping node.kind)

def readSequence (path : String) : Node → Except SpecError (List Node)
  | .sequence items => .ok items
  | node => .error (.invalidType path .sequence node.kind)

def readString (path : String) : Node → Except SpecError String
  | .string s => .ok (trim s)
  | node => .error (.invalidType path .string node.kind)

def readKey (path : String) : Node → Except SpecError String
  | .string s => .ok (trim s)
  | node => .error (.invalidType path .stringKey node.kind)

def readText (path : String) (node : Node) : Except SpecError String := do
  let s ← readString path node
  if s.isEmpty then .error (.invalidValue path .emptyText) else return s

/-- A member that is there and not null. -/
def section? (name : String) (members : Members) : Option Node :=
  match Node.get? name members with
  | some .null | none => none
  | some node => some node

def required (name : String) (members : Members) : Except SpecError Node :=
  match section? name members with
  | some node => .ok node
  | none => .error (.missingField name)

def readItems {α : Type} (path : String) (read : String → Node → Except SpecError α)
    (items : List Node) : Except SpecError (List α) :=
  items.zipIdx.mapM fun (item, i) => read s!"{path}[{i}]" item

/-- Fails at the first key that is not a text or, trimmed, not an allowed one. -/
def rejectUnknown (allowed : List String) (parent : Option String) :
    Members → Except SpecError Unit
  | [] => .ok ()
  | (key, _) :: rest => do
    let name ← readKey (parent.getD "<root>") key
    if allowed.contains name then rejectUnknown allowed parent rest
    else .error (.unknownField (match parent with
      | some path => s!"{path}.{name}"
      | none => name))

/-- A member of a table declaration; it must be there but may be null. -/
def tableField (path name : String) (members : Members) : Except SpecError Node :=
  match Node.get? name members with
  | some node => .ok node
  | none => .error (.missingField s!"{path}.{name}")

def readTableKind (path : String) (node : Node) : Except SpecError TableKind := do
  let text ← readString path node
  match TableKind.ofText? text with
  | some kind => return kind
  | none => .error (.invalidValue path (.tableKind text))

def readOrigin (path : String) : Option Node → Except SpecError (Option String)
  | some .null | none => return none
  | some node => return some (← readString path node)

def checkAlias (path aliasName : String) : Except SpecError Unit :=
  if aliasName.isEmpty then .error (.invalidValue path .emptyAlias)
  else if aliasName.contains '.' then .error (.invalidValue path .dottedAlias)
  else .ok ()

def readTable (key value : Node) : Except SpecError TableDecl := do
  let aliasName ← readKey "dependencies" key
  let path := s!"dependencies.{aliasName}"
  checkAlias path aliasName
  let members ← readMapping path value
  rejectUnknown tableFieldNames (some path) members
  let physicalName ← readText s!"{path}.table_name" (← tableField path "table_name" members)
  let kind ← readTableKind s!"{path}.type" (← tableField path "type" members)
  let origin ← readOrigin s!"{path}.source" (Node.get? "source" members)
  return { aliasName, physicalName, kind, origin }

def readTables (node : Node) : Except SpecError (List TableDecl) := do
  let members ← readMapping "dependencies" node
  if members.isEmpty then .error (.invalidValue "dependencies" .noTables)
  else members.mapM fun (key, value) => readTable key value

def readJoinKind (path text : String) : Except SpecError JoinKind :=
  match JoinKind.ofText? text with
  | some kind => .ok kind
  | none => .error (.invalidValue path (.joinKind text))

def readJoin (path : String) (node : Node) : Except SpecError JoinCondition := do
  let parts ← readSequence path node
  if parts.length ≠ 4 ∧ parts.length ≠ 5 then
    .error (.invalidValue path (.joinParts parts.length))
  else
    match ← readItems path readText parts with
    | [leftAlias, rightAlias, leftKey, rightKey] =>
      return { leftAlias, rightAlias, leftKey, rightKey, kind := none }
    | [leftAlias, rightAlias, leftKey, rightKey, kind] =>
      let kind ← readJoinKind s!"{path}[4]" kind
      return { leftAlias, rightAlias, leftKey, rightKey, kind := some kind }
    | texts => .error (.invalidValue path (.joinParts texts.length))

def readSelectEntry (key value : Node) : Except SpecError SelectEntry := do
  let source ← readKey "select" key
  match value with
  | .null => return { source, outputName := none }
  | node => return { source, outputName := some (← readText s!"select.{source}" node) }

def readSelect (node : Node) : Except SpecError (List SelectEntry) := do
  let members ← readMapping "select" node
  if members.isEmpty then .error (.invalidValue "select" .noColumns)
  else members.mapM fun (key, value) => readSelectEntry key value

def readDirection (path : String) (node : Node) : Except SpecError Direction := do
  let text ← readString path node
  match Direction.ofText? text with
  | some direction => return direction
  | none => .error (.invalidValue path (.direction text))

def readSortCondition (path : String) : Node → Except SpecError SortCondition
  | .string column => .ok { column := trim column, direction := .asc }
  | .sequence [column, direction] => do
    let column ← readText s!"{path}[0]" column
    let direction ← readDirection s!"{path}[1]" direction
    return { column, direction }
  | .sequence parts => .error (.invalidValue path (.sortParts parts.length))
  | node => .error (.invalidType path .sequence node.kind)

def readList {α : Type} (name : String) (read : String → Node → Except SpecError α)
    (members : Members) : Except SpecError (List α) :=
  match section? name members with
  | some node => do readItems name read (← readSequence name node)
  | none => return []

def ofNode (document : Node) : Except SpecError Spec := do
  let root ← readMapping "<root>" document
  rejectUnknown sectionNames none root
  let name ← readText "constructed_table_name" (← required "constructed_table_name" root)
  let tables ← readTables (← required "dependencies" root)
  let joins ← readList "join_conditions" readJoin root
  let select ← readSelect (← required "select" root)
  let filter ← readList "filter_condition" readText root
  let group ← readList "group_condition" readText root
  let having ← readList "having_condition" readText root
  let sort ← readList "sort_condition" readSortCondition root
  return { name, tables, joins, select, filter, group, having, sort }

def readDocument (text : String) : Except SpecError Node :=
  match Node.ofText? text with
  | some document => .ok document
  | none => .error .malformed

end Spec

end TablePlan
