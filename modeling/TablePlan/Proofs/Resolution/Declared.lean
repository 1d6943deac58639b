import TablePlan.Proofs.Declarations
import TablePlan.Proofs.Resolution.Scope

/-!
References to columns of declared tables. Whatever a scope accepts, be it a reference, an aggregate
or a join key, is turned into references of this kind.
-/

namespace TablePlan

open Success

/-- A reference to a column that the schema of a declared table lists. -/
def ColumnRef.Declared (schemas : Schemas) (tables : List TableDecl) (ref : ColumnRef) : Prop :=
  ∃ t ∈ tables, ref.aliasName = some t.aliasName ∧
    ∃ columns, schemas.find? t.physicalName = some columns ∧ ref.column ∈ columns

def Operand.refs : Operand → List ColumnRef
  | .column ref => [ref]
  | .literal _ => []
  | .aggregate call => call.argument.toList

structure JoinEdge.Bound (schemas : Schemas) (tables : List TableDecl) (e : JoinEdge) : Prop where
  left : e.leftKey.aliasName = some e.leftAlias
  right : e.rightKey.aliasName = some e.rightAlias
  left_declared : e.leftKey.Declared schemas tables
  right_declared : e.rightKey.Declared schemas tables

theorem ColumnRef.Declared.mem_aliases {schemas : Schemas} {tables : List TableDecl}
    {ref : ColumnRef} {a : String} (declared : ref.Declared schemas tables)
    (named : ref.aliasName = some a) : a ∈ tables.map TableDecl.aliasName := by
  obtain ⟨t, mem, same, _⟩ := declared
  rw [named, Option.some.injEq] at same
  exact same ▸ List.mem_map_of_mem mem

namespace JoinEdge.Bound

variable {schemas : Schemas} {tables : List TableDecl} {e : JoinEdge}

theorem reversed (bound : e.Bound schemas tables) : e.reversed.Bound schemas tables :=
  ⟨bound.right, bound.left, bound.right_declared, bound.left_declared⟩

theorem ends_mem (bound : e.Bound schemas tables) :
    e.leftAlias ∈ tables.map TableDecl.aliasName ∧
      e.rightAlias ∈ tables.map TableDecl.aliasName :=
  ⟨bound.left_declared.mem_aliases bound.left, bound.right_declared.mem_aliases bound.right⟩

end JoinEdge.Bound

namespace Scope

variable {schemas : Schemas} {tables : List TableDecl} {scope : Scope}

theorem listed_of_ofTables (made : ofTables schemas tables = .ok scope) :
    ∀ t ∈ tables, ∃ columns, schemas.find? t.physicalName = some columns := by
  obtain ⟨entries, found, _⟩ := bind_eq_ok.1 made
  intro t mem
  obtain ⟨entry, stored⟩ := exists_mapM_eq_ok.1 ⟨entries, found⟩ t mem
  split at stored
  · exact ⟨_, ‹_›⟩
  · cases stored

def declared (schemas : Schemas) (tables : List TableDecl) : Scope :=
  ⟨tables.map TableDecl.aliasName,
    Named.ofList (tables.map fun t => (t.aliasName, (schemas.find? t.physicalName).getD []))⟩

theorem ofTables_eq_ok :
    ofTables schemas tables = .ok scope ↔
      (∀ t ∈ tables, ∃ columns, schemas.find? t.physicalName = some columns) ∧
      scope = declared schemas tables := by
  have entries (listed : ∀ t ∈ tables, ∃ columns, schemas.find? t.physicalName = some columns) :
      ofTables schemas tables = .ok (declared schemas tables) := by
    refine bind_eq_ok.2 ⟨_, mapM_eq_ok_map (g := fun t =>
      (t.aliasName, (schemas.find? t.physicalName).getD [])) fun t mem => ?_, rfl⟩
    obtain ⟨columns, found⟩ := listed t mem
    rw [found]
    rfl
  constructor
  · intro made
    have listed := listed_of_ofTables made
    rw [entries listed] at made
    cases made
    exact ⟨listed, rfl⟩
  · rintro ⟨listed, rfl⟩
    exact entries listed

theorem find?_columns (made : ofTables schemas tables = .ok scope) (a : String) :
    scope.columns.find? a =
      (declaredAs tables a).getLast?.bind fun t => schemas.find? t.physicalName := by
  obtain ⟨listed, rfl⟩ := ofTables_eq_ok.1 made
  rw [declared, find?_ofList_map]
  cases last : (declaredAs tables a).getLast? with
  | none => rfl
  | some t =>
    obtain ⟨columns, found⟩ := listed t (mem_declaredAs.1 (List.mem_of_getLast? last)).1
    rw [Option.map_some, Option.bind_some, found, Option.getD_some]

theorem declared_of_has (made : ofTables schemas tables = .ok scope) {a column : String}
    (has : scope.has a column = true) : (ColumnRef.qualified a column).Declared schemas tables := by
  unfold Scope.has at has
  rw [find?_columns made] at has
  cases last : (declaredAs tables a).getLast? with
  | none =>
    rw [last] at has
    cases has
  | some t =>
    obtain ⟨mem, rfl⟩ := mem_declaredAs.1 (List.mem_of_getLast? last)
    obtain ⟨columns, listed⟩ := listed_of_ofTables made t mem
    rw [last, Option.bind_some, listed, Option.getD_some, List.contains_iff_mem] at has
    exact ⟨t, mem, rfl, columns, listed, has⟩

variable (made : ofTables schemas tables = .ok scope)

include made

theorem Finds.declared {ref ref' : ColumnRef} (found : scope.Finds ref ref') :
    ref'.Declared schemas tables := by
  obtain ⟨a, rfl, has⟩ := found.exists_has
  exact declared_of_has made has

theorem column_declared {place : Place} {ref ref' : ColumnRef}
    (ok : scope.column place ref = .ok ref') : ref'.Declared schemas tables :=
  (column_eq_ok_iff.1 ok).declared made

theorem FindsOperand.declared {operand operand' : Operand}
    (found : scope.FindsOperand operand operand') :
    ∀ ref ∈ operand'.refs, ref.Declared schemas tables := by
  cases found with
  | column found => simpa [Operand.refs] using found.declared made
  | literal value => simp [Operand.refs]
  | aggregate found =>
    cases found with
    | none => simp [Operand.refs]
    | some found => simpa [Operand.refs] using found.declared made

theorem operand_declared {place : Place} {operand operand' : Operand}
    (ok : scope.operand place operand = .ok operand') :
    ∀ ref ∈ operand'.refs, ref.Declared schemas tables :=
  (operand_eq_ok_iff.1 ok).declared made

theorem join_bound {default : JoinKind} {index : Nat} {c : JoinCondition} {e : JoinEdge}
    (ok : scope.join default index c = .ok e) : e.Bound schemas tables := by
  obtain ⟨leftAlias, rightAlias, _, left, right⟩ := join_eq_ok_iff.1 ok
  refine ⟨?_, ?_, left.found.declared made, right.found.declared made⟩
  · rw [left.key_eq, leftAlias, ColumnRef.qualified]
  · rw [right.key_eq, rightAlias, ColumnRef.qualified]

theorem selectClause_declared {index : Nat} {clause : SelectClause} {entry : ResolvedSelect}
    (ok : scope.selectClause index clause = .ok entry) {source : ColumnSource}
    (resolved : entry.source = .resolved source) :
    ∀ ref ∈ source.toOperand.refs, ref.Declared schemas tables := by
  obtain ⟨_, _, selects⟩ := selectClause_eq_ok_iff.1 ok
  exact (resolved ▸ selects).findsOperand.declared made

theorem havingOperand_declared {select : List ResolvedSelect}
    (selected : ∀ entry ∈ select, ∀ source, entry.source = .resolved source →
      ∀ ref ∈ source.toOperand.refs, ref.Declared schemas tables)
    {operand operand' : Operand} (ok : scope.havingOperand select operand = .ok operand') :
    ∀ ref ∈ operand'.refs, ref.Declared schemas tables := by
  cases havingOperand_eq_ok_iff.1 ok with
  | output given =>
    obtain ⟨entry, mem, named⟩ := List.exists_of_findSome?_eq_some given
    exact selected entry mem _ (ResolvedSelect.sourceNamed?_eq_some.1 named).1
  | table _ found => exact found.declared made

end Scope

end TablePlan
