import TablePlan.Resolution.Error
import TablePlan.Schemas
import TablePlan.Plan.Basic

/-!
The columns in scope: the declared aliases in their order and the columns of each. A reference
without an alias belongs to the only table that has its column.
-/

namespace TablePlan

structure Scope where
  aliases : List String
  columns : Named (List String)
  deriving DecidableEq, Repr

namespace Scope

def ofTables (schemas : Schemas) (tables : List TableDecl) : Except ResolutionError Scope := do
  let entries ← tables.mapM fun t => match schemas.find? t.physicalName with
    | some columns => .ok (t.aliasName, columns)
    | none => .error (.missingSchema t.aliasName t.physicalName)
  return ⟨tables.map TableDecl.aliasName, Named.ofList entries⟩

def declares (scope : Scope) (aliasName : String) : Bool :=
  (scope.columns.find? aliasName).isSome

def requireAlias (scope : Scope) (place : Place) (aliasName : String) :
    Except ResolutionError Unit :=
  if scope.declares aliasName then .ok () else .error (.unknownAlias aliasName place)

def has (scope : Scope) (aliasName column : String) : Bool :=
  ((scope.columns.find? aliasName).getD []).contains column

/-- The aliases whose tables have a column, in declaration order. -/
def owners (scope : Scope) (column : String) : List String :=
  scope.aliases.filter fun aliasName => scope.has aliasName column

def column (scope : Scope) (place : Place) (ref : ColumnRef) :
    Except ResolutionError ColumnRef :=
  match ref.aliasName with
  | some aliasName => do
    scope.requireAlias place aliasName
    if scope.has aliasName ref.column then return ref else .error (.unknownColumn ref place)
  | none => match scope.owners ref.column with
    | [aliasName] => .ok (.qualified aliasName ref.column)
    | [] => .error (.unknownColumn ref place)
    | aliases => .error (.ambiguousColumn ref.column aliases place)

def aggregate (scope : Scope) (place : Place) (call : AggregateCall) :
    Except ResolutionError AggregateCall :=
  match call.argument with
  | some ref => do return { call with argument := some (← scope.column place ref) }
  | none => .ok call

def operand (scope : Scope) (place : Place) : Operand → Except ResolutionError Operand
  | .column ref => return .column (← scope.column place ref)
  | .aggregate call => return .aggregate (← scope.aggregate place call)
  | .literal value => return .literal value

/-- A join key belongs to its side; without an alias it takes the one of that side. -/
def joinKey (scope : Scope) (place : Place) (side text : String) :
    Except ResolutionError ColumnRef := do
  let ref := ColumnRef.parse text
  match ref.aliasName with
  | some aliasName =>
    if aliasName ≠ side then
      scope.requireAlias place aliasName
      .error (.keyAliasMismatch text side place)
    else scope.column place (.qualified side ref.column)
  | none => scope.column place (.qualified side ref.column)

end Scope

end TablePlan
