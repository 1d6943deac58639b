import TablePlan.Proofs.Resolution.OutputName
import TablePlan.Proofs.Resolution.TableOrder

/-!
What references, operands, selected entries and join conditions resolve to, in terms of the declared
tables alone. Aliases are distinct, so the owners of a column are tables.
-/

namespace TablePlan

open Success

def ownersOf (schemas : Schemas) (tables : List TableDecl) (column : String) : List TableDecl :=
  tables.filter fun t => ((schemas.find? t.physicalName).getD []).contains column

/-- A reference with an alias is a declared one and stays as it is; without an alias it belongs to
the only table that has its column. -/
inductive ColumnRef.ResolvesTo (schemas : Schemas) (tables : List TableDecl) :
    ColumnRef → ColumnRef → Prop
  | named {ref : ColumnRef} (declared : ref.Declared schemas tables) :
    ResolvesTo schemas tables ref ref
  | bare {name : String} {t : TableDecl} (only : ownersOf schemas tables name = [t]) :
    ResolvesTo schemas tables (.bare name) (.qualified t.aliasName name)

inductive Operand.ResolvesTo (schemas : Schemas) (tables : List TableDecl) :
    Operand → Operand → Prop
  | column {ref ref' : ColumnRef} (resolves : ref.ResolvesTo schemas tables ref') :
    ResolvesTo schemas tables (.column ref) (.column ref')
  | literal (value : Literal) : ResolvesTo schemas tables (.literal value) (.literal value)
  | aggregate {function : AggregateFunction} {argument argument' : Option ColumnRef}
    (resolves : Option.Rel (ColumnRef.ResolvesTo schemas tables) argument argument') :
    ResolvesTo schemas tables (.aggregate ⟨function, argument⟩) (.aggregate ⟨function, argument'⟩)

/-- A selected entry keeps its key and its output name. It is ambiguous exactly when it is a bare
column that several tables have. -/
structure SelectClause.ResolvesTo (schemas : Schemas) (tables : List TableDecl)
    (clause : SelectClause) (entry : ResolvedSelect) : Prop where
  key : entry.key = clause.key
  outputName : entry.outputName = clause.outputName
  ambiguous : ∀ column aliases, entry.source = .ambiguous column aliases ↔
    clause.source = .column (.bare column) ∧ 2 ≤ (ownersOf schemas tables column).length ∧
      aliases = (ownersOf schemas tables column).map TableDecl.aliasName
  resolved : ∀ source, entry.source = .resolved source →
    clause.source.toOperand.ResolvesTo schemas tables source.toOperand

def ResolvedSelect.Gives (name : String) (source : ColumnSource) (entry : ResolvedSelect) : Prop :=
  entry.source = .resolved source ∧ entry.outputName = some name

/-- In `having` a bare name stands for the source of the first entry that gives it; all else
resolves as it does elsewhere. -/
inductive Operand.ResolvesInHaving (schemas : Schemas) (tables : List TableDecl)
    (select : List ResolvedSelect) : Operand → Operand → Prop
  | output {name : String} {source : ColumnSource} {before after : List ResolvedSelect}
    {entry : ResolvedSelect} (at_entry : select = before ++ entry :: after)
    (gives : entry.Gives name source) (first : ∀ e ∈ before, ∀ other, ¬ e.Gives name other) :
    ResolvesInHaving schemas tables select (.column (.bare name)) source.toOperand
  | table {operand operand' : Operand}
    (unnamed : ∀ name, operand = .column (.bare name) →
      ∀ e ∈ select, ∀ source, ¬ e.Gives name source)
    (resolves : operand.ResolvesTo schemas tables operand') :
    ResolvesInHaving schemas tables select operand operand'

/-- A join key is a declared column of its side, and it names no other alias. -/
structure ColumnRef.IsKey (schemas : Schemas) (tables : List TableDecl) (side text : String)
    (found : ColumnRef) : Prop where
  key : found = .qualified side (parse text).column
  own : ∀ a ∈ (parse text).aliasName, a = side
  declared : found.Declared schemas tables

structure JoinCondition.ResolvesTo (schemas : Schemas) (tables : List TableDecl)
    (default : JoinKind) (c : JoinCondition) (e : JoinEdge) : Prop where
  leftAlias : e.leftAlias = c.leftAlias
  rightAlias : e.rightAlias = c.rightAlias
  kind : e.kind = c.kind.getD default
  leftKey : e.leftKey.IsKey schemas tables c.leftAlias c.leftKey
  rightKey : e.rightKey.IsKey schemas tables c.rightAlias c.rightKey

namespace Scope

variable {schemas : Schemas} {tables : List TableDecl} {scope : Scope} {place : Place}
  (distinct : (tables.map TableDecl.aliasName).Nodup)
  (made : ofTables schemas tables = .ok scope)

include distinct made

theorem find?_columns_of_mem {t : TableDecl} (mem : t ∈ tables) :
    scope.columns.find? t.aliasName = schemas.find? t.physicalName := by
  rw [find?_columns made, declaredAs_of_mem distinct mem]
  rfl

theorem has_iff {a column : String} :
    scope.has a column = true ↔ (ColumnRef.qualified a column).Declared schemas tables := by
  constructor
  · exact declared_of_has made
  · rintro ⟨t, mem, named, columns, listed, read⟩
    cases named
    rw [has, find?_columns_of_mem distinct made mem, listed, Option.getD_some]
    exact List.contains_iff_mem.2 read

theorem declares_of_declared {a column : String}
    (declared : (ColumnRef.qualified a column).Declared schemas tables) :
    scope.declares a = true := by
  obtain ⟨t, mem, named, columns, listed, _⟩ := declared
  cases named
  rw [declares, find?_columns_of_mem distinct made mem, listed]
  rfl

theorem owners_eq (column : String) :
    scope.owners column = (ownersOf schemas tables column).map TableDecl.aliasName := by
  have aliases : scope.aliases = tables.map TableDecl.aliasName := by
    rw [(ofTables_eq_ok.1 made).2]
    rfl
  rw [owners, aliases, List.filter_map, ownersOf]
  refine congrArg _ (List.filter_congr fun t mem => ?_)
  rw [Function.comp_apply, has, find?_columns_of_mem distinct made mem]

theorem finds_iff {ref ref' : ColumnRef} :
    scope.Finds ref ref' ↔ ref.ResolvesTo schemas tables ref' := by
  constructor
  · intro found
    cases found with
    | named _ has => exact .named (declared_of_has made has)
    | bare only =>
      rw [owners_eq distinct made] at only
      obtain ⟨t, single, rfl⟩ := List.map_eq_singleton_iff.1 only
      exact .bare single
  · intro resolves
    cases resolves with
    | named declared =>
      have found := declared
      obtain ⟨t, _, named, _⟩ := found
      obtain ⟨_, column⟩ := ref
      cases named
      exact .named (declares_of_declared distinct made declared)
        ((has_iff distinct made).2 declared)
    | bare only =>
      refine .bare ?_
      rw [owners_eq distinct made, only, List.map_singleton]

theorem finds_eq : scope.Finds = ColumnRef.ResolvesTo schemas tables :=
  funext₂ fun _ _ => propext (finds_iff distinct made)

theorem column_eq_ok {ref ref' : ColumnRef} :
    scope.column place ref = .ok ref' ↔ ref.ResolvesTo schemas tables ref' := by
  rw [column_eq_ok_iff, finds_eq distinct made]

theorem findsOperand_iff {operand operand' : Operand} :
    scope.FindsOperand operand operand' ↔ operand.ResolvesTo schemas tables operand' := by
  constructor
  · intro finds
    cases finds with
    | column found => exact .column ((finds_iff distinct made).1 found)
    | literal value => exact .literal value
    | aggregate found => exact .aggregate (finds_eq distinct made ▸ found)
  · intro resolves
    cases resolves with
    | column resolves => exact .column ((finds_iff distinct made).2 resolves)
    | literal value => exact .literal value
    | aggregate resolves => exact .aggregate (finds_eq distinct made ▸ resolves)

theorem operand_eq_ok {operand operand' : Operand} :
    scope.operand place operand = .ok operand' ↔ operand.ResolvesTo schemas tables operand' :=
  operand_eq_ok_iff.trans (findsOperand_iff distinct made)

theorem selects_resolved_iff {source found : ColumnSource} :
    scope.Selects source (.resolved found) ↔
      source.toOperand.ResolvesTo schemas tables found.toOperand := by
  rw [← findsOperand_iff distinct made]
  exact ⟨Selects.findsOperand, .resolved⟩

theorem selects_ambiguous_iff {source : ColumnSource} {column : String}
    {aliases : List String} :
    scope.Selects source (.ambiguous column aliases) ↔
      source = .column (.bare column) ∧ 2 ≤ (ownersOf schemas tables column).length ∧
        aliases = (ownersOf schemas tables column).map TableDecl.aliasName := by
  have owners := owners_eq distinct made column
  have number : (scope.owners column).length = (ownersOf schemas tables column).length := by
    rw [owners, List.length_map]
  constructor
  · intro selects
    cases selects with
    | ambiguous several => exact ⟨rfl, number ▸ several, owners⟩
  · rintro ⟨rfl, several, rfl⟩
    rw [← number] at several
    exact owners ▸ .ambiguous several

theorem selectClause_eq_ok {index : Nat} {clause : SelectClause} {entry : ResolvedSelect} :
    scope.selectClause index clause = .ok entry ↔ clause.ResolvesTo schemas tables entry := by
  rw [selectClause_eq_ok_iff]
  constructor
  · rintro ⟨key, outputName, selects⟩
    refine ⟨key, outputName, fun column aliases => ?_, fun found resolved => ?_⟩
    · rw [← selects_ambiguous_iff distinct made]
      exact ⟨fun ambiguous => ambiguous ▸ selects, selects.unique⟩
    · exact (selects_resolved_iff distinct made).1 (resolved ▸ selects)
  · rintro ⟨key, outputName, ambiguous, resolved⟩
    refine ⟨key, outputName, ?_⟩
    cases source : entry.source with
    | resolved found => exact (selects_resolved_iff distinct made).2 (resolved found source)
    | ambiguous column aliases =>
      exact (selects_ambiguous_iff distinct made).2 ((ambiguous column aliases).1 source)

theorem havingOperand_eq_ok {select : List ResolvedSelect} {operand operand' : Operand} :
    scope.havingOperand select operand = .ok operand' ↔
      operand.ResolvesInHaving schemas tables select operand' := by
  have given (name : String) (e : ResolvedSelect) :
      e.sourceNamed? name = none ↔ ∀ source, ¬ e.Gives name source := by
    rw [Option.eq_none_iff_forall_ne_some]
    exact forall_congr' fun source => not_congr ResolvedSelect.sourceNamed?_eq_some
  rw [havingOperand_eq_ok_iff]
  constructor
  · intro finds
    cases finds with
    | output found =>
      obtain ⟨before, entry, after, at_entry, gives, first⟩ := List.findSome?_eq_some_iff.1 found
      exact .output at_entry (ResolvedSelect.sourceNamed?_eq_some.1 gives)
        fun e mem => (given _ e).1 (first e mem)
    | table unnamed found =>
      refine .table (fun name same e mem => ?_) ((findsOperand_iff distinct made).1 found)
      exact (given name e).1 (List.findSome?_eq_none_iff.1 (unnamed name same) e mem)
  · intro resolves
    cases resolves with
    | @output name source before after entry at_entry gives first =>
      exact .output (List.findSome?_eq_some_iff.2 ⟨before, entry, after, at_entry,
        ResolvedSelect.sourceNamed?_eq_some.2 gives, fun e mem => (given name e).2 (first e mem)⟩)
    | table unnamed resolves =>
      refine .table (fun name same => ?_) ((findsOperand_iff distinct made).2 resolves)
      exact List.findSome?_eq_none_iff.2 fun e mem => (given name e).2 (unnamed name same e mem)

theorem findsKey_iff {side text : String} {key : ColumnRef} :
    scope.FindsKey side text key ↔ key.IsKey schemas tables side text := by
  constructor
  · intro key_found
    exact ⟨key_found.key_eq, key_found.own, key_found.found.declared made⟩
  · rintro ⟨rfl, own, declared⟩
    exact ⟨own, (finds_iff distinct made).2 (.named declared)⟩

theorem join_eq_ok {default : JoinKind} {index : Nat} {c : JoinCondition} {e : JoinEdge} :
    scope.join default index c = .ok e ↔ c.ResolvesTo schemas tables default e := by
  rw [join_eq_ok_iff]
  constructor
  · rintro ⟨leftAlias, rightAlias, kind, left, right⟩
    exact ⟨leftAlias, rightAlias, kind, (findsKey_iff distinct made).1 left,
      (findsKey_iff distinct made).1 right⟩
  · rintro ⟨leftAlias, rightAlias, kind, left, right⟩
    exact ⟨leftAlias, rightAlias, kind, (findsKey_iff distinct made).2 left,
      (findsKey_iff distinct made).2 right⟩

end Scope

end TablePlan
