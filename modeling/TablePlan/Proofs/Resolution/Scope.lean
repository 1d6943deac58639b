import TablePlan.Proofs.Success
import TablePlan.Resolution.Basic

/-!
What a scope accepts, one result for each of its functions. The place that is given to them matters
for errors only, so none of the results mentions it.
-/

namespace TablePlan

open Success

namespace Scope

/-- What a reference becomes: with an alias it stays as it is, without one it takes its only
owner. -/
inductive Finds (scope : Scope) : ColumnRef → ColumnRef → Prop
  | named {a column : String} (declared : scope.declares a = true)
    (has : scope.has a column = true) :
    Finds scope (.qualified a column) (.qualified a column)
  | bare {a column : String} (only : scope.owners column = [a]) :
    Finds scope (.bare column) (.qualified a column)

inductive FindsOperand (scope : Scope) : Operand → Operand → Prop
  | column {ref ref' : ColumnRef} (found : scope.Finds ref ref') :
    FindsOperand scope (.column ref) (.column ref')
  | literal (value : Literal) : FindsOperand scope (.literal value) (.literal value)
  | aggregate {function : AggregateFunction} {argument argument' : Option ColumnRef}
    (found : Option.Rel scope.Finds argument argument') :
    FindsOperand scope (.aggregate ⟨function, argument⟩) (.aggregate ⟨function, argument'⟩)

/-- What a selected source becomes: a bare column with several owners stays ambiguous. -/
inductive Selects (scope : Scope) : ColumnSource → SelectSource → Prop
  | resolved {written source : ColumnSource}
    (found : scope.FindsOperand written.toOperand source.toOperand) :
    Selects scope written (.resolved source)
  | ambiguous {column : String} (several : 1 < (scope.owners column).length) :
    Selects scope (.column (.bare column)) (.ambiguous column (scope.owners column))

inductive FindsInHaving (scope : Scope) (select : List ResolvedSelect) : Operand → Operand → Prop
  | output {name : String} {source : ColumnSource}
    (given : select.findSome? (ResolvedSelect.sourceNamed? name) = some source) :
    FindsInHaving scope select (.column (.bare name)) source.toOperand
  | table {operand operand' : Operand}
    (unnamed : ∀ name, operand = .column (.bare name) →
      select.findSome? (ResolvedSelect.sourceNamed? name) = none)
    (found : scope.FindsOperand operand operand') :
    FindsInHaving scope select operand operand'

structure FindsKey (scope : Scope) (side text : String) (key : ColumnRef) : Prop where
  own : ∀ a ∈ (ColumnRef.parse text).aliasName, a = side
  found : scope.Finds (.qualified side (ColumnRef.parse text).column) key

structure Links (scope : Scope) (default : JoinKind) (c : JoinCondition) (e : JoinEdge) :
    Prop where
  leftAlias : e.leftAlias = c.leftAlias
  rightAlias : e.rightAlias = c.rightAlias
  kind : e.kind = c.kind.getD default
  left : scope.FindsKey c.leftAlias c.leftKey e.leftKey
  right : scope.FindsKey c.rightAlias c.rightKey e.rightKey

variable {scope : Scope} {place : Place}

theorem Finds.exists_has {ref ref' : ColumnRef} (found : scope.Finds ref ref') :
    ∃ a, ref' = .qualified a ref.column ∧ scope.has a ref.column = true := by
  cases found with
  | @named a column _ has => exact ⟨a, rfl, has⟩
  | @bare a column only =>
    have owned : a ∈ scope.owners column := only ▸ List.mem_singleton_self a
    exact ⟨a, rfl, (List.mem_filter.1 owned).2⟩

theorem Finds.unique {ref ref' ref'' : ColumnRef} (found : scope.Finds ref ref')
    (found' : scope.Finds ref ref'') : ref' = ref'' := by
  cases found with
  | named =>
    cases found' with
    | named => rfl
  | bare only =>
    cases found' with
    | bare only' => rw [List.singleton_inj.1 (only.symm.trans only')]

theorem Selects.findsOperand {written source : ColumnSource}
    (selects : scope.Selects written (.resolved source)) :
    scope.FindsOperand written.toOperand source.toOperand := by
  cases selects with
  | resolved found => exact found

theorem FindsOperand.exists_column {ref : ColumnRef} {source : ColumnSource}
    (found : scope.FindsOperand (.column ref) source.toOperand) :
    ∃ ref', source = .column ref' ∧ scope.Finds ref ref' := by
  cases source with
  | aggregate call => cases found
  | column ref' =>
    cases found with
    | column found => exact ⟨ref', rfl, found⟩

theorem requireAlias_eq_ok {a : String} :
    scope.requireAlias place a = .ok () ↔ scope.declares a = true := by
  unfold requireAlias
  split
  · rename_i declared
    simp [declared]
  · rename_i unknown
    simp [unknown]

theorem column_eq_ok_iff {ref ref' : ColumnRef} :
    scope.column place ref = .ok ref' ↔ scope.Finds ref ref' := by
  obtain ⟨_ | a, column⟩ := ref
  · rw [Scope.column]
    dsimp only
    constructor
    · intro ok
      split at ok
      · rename_i only
        cases ok
        exact .bare only
      · cases ok
      · cases ok
    · intro found
      cases found with
      | bare only => rw [only]
  · rw [Scope.column]
    dsimp only
    rw [check_eq_ok, requireAlias_eq_ok]
    constructor
    · rintro ⟨declared, ok⟩
      split_ifs at ok with has
      cases pure_eq_ok.1 ok
      exact .named declared has
    · intro found
      cases found with
      | named declared has => exact ⟨declared, if_pos has⟩

theorem aggregate_eq_ok_iff {call call' : AggregateCall} :
    scope.aggregate place call = .ok call' ↔
      scope.FindsOperand (.aggregate call) (.aggregate call') := by
  obtain ⟨function, _ | ref⟩ := call
  · constructor
    · intro ok
      cases ok
      exact .aggregate .none
    · intro finds
      cases finds with
      | aggregate found =>
        cases found
        rfl
  · constructor
    · intro ok
      obtain ⟨ref', found, same⟩ := bind_eq_ok.1 ok
      cases pure_eq_ok.1 same
      exact .aggregate (.some (column_eq_ok_iff.1 found))
    · intro finds
      cases finds with
      | aggregate found =>
        cases found with
        | some found => exact bind_eq_ok.2 ⟨_, column_eq_ok_iff.2 found, rfl⟩

theorem operand_eq_ok_iff {operand operand' : Operand} :
    scope.operand place operand = .ok operand' ↔ scope.FindsOperand operand operand' := by
  constructor
  · intro ok
    cases operand with
    | column ref =>
      obtain ⟨ref', found, same⟩ := bind_eq_ok.1 ok
      cases pure_eq_ok.1 same
      exact .column (column_eq_ok_iff.1 found)
    | aggregate call =>
      obtain ⟨call', found, same⟩ := bind_eq_ok.1 ok
      cases pure_eq_ok.1 same
      exact aggregate_eq_ok_iff.1 found
    | literal value =>
      cases pure_eq_ok.1 ok
      exact .literal value
  · intro finds
    cases finds with
    | column found => exact bind_eq_ok.2 ⟨_, column_eq_ok_iff.2 found, rfl⟩
    | aggregate found => exact bind_eq_ok.2 ⟨_, aggregate_eq_ok_iff.2 (.aggregate found), rfl⟩
    | literal value => rfl

theorem havingOperand_eq_ok_iff {select : List ResolvedSelect} {operand operand' : Operand} :
    scope.havingOperand select operand = .ok operand' ↔
      scope.FindsInHaving select operand operand' := by
  constructor
  · intro ok
    unfold havingOperand at ok
    split at ok
    · rename_i name
      split at ok
      · rename_i given
        cases ok
        exact .output given
      · rename_i unnamed
        refine .table (fun other same => ?_) (operand_eq_ok_iff.1 ok)
        cases same
        exact unnamed
    · rename_i other
      exact .table (fun name same => absurd same (other name)) (operand_eq_ok_iff.1 ok)
  · intro finds
    cases finds with
    | output given =>
      unfold havingOperand ColumnRef.bare
      dsimp only
      rw [given]
    | table unnamed found =>
      have ok : scope.operand .having operand = .ok operand' := operand_eq_ok_iff.2 found
      unfold havingOperand
      split
      · rename_i name
        rw [unnamed name rfl]
        exact ok
      · exact ok

theorem Finds.single {ref ref' : ColumnRef} (found : scope.Finds ref ref') :
    (ref.aliasName.isNone && decide (1 < (scope.owners ref.column).length)) = false := by
  cases found with
  | named => rfl
  | bare only => simp [ColumnRef.bare, only]

theorem selectSource_eq_ok_iff {source : ColumnSource} {selected : SelectSource} :
    scope.selectSource place source = .ok selected ↔ scope.Selects source selected := by
  constructor
  · intro ok
    cases source with
    | aggregate call =>
      obtain ⟨call', found, same⟩ := bind_eq_ok.1 ok
      cases pure_eq_ok.1 same
      exact .resolved (aggregate_eq_ok_iff.1 found)
    | column ref =>
      rw [selectSource] at ok
      split_ifs at ok with ambiguous
      · obtain ⟨none, several⟩ := Bool.and_eq_true_iff.1 ambiguous
        obtain ⟨_, column⟩ := ref
        cases Option.isNone_iff_eq_none.1 none
        cases pure_eq_ok.1 ok
        exact .ambiguous (of_decide_eq_true several)
      · obtain ⟨ref', found, same⟩ := bind_eq_ok.1 ok
        cases pure_eq_ok.1 same
        exact .resolved (.column (column_eq_ok_iff.1 found))
  · intro selects
    cases selects with
    | ambiguous several => exact if_pos (Bool.and_eq_true_iff.2 ⟨rfl, decide_eq_true several⟩)
    | @resolved _ found finds =>
      cases source with
      | aggregate call =>
        cases found with
        | column => cases finds
        | aggregate call' => exact bind_eq_ok.2 ⟨_, aggregate_eq_ok_iff.2 finds, rfl⟩
      | column ref =>
        cases found with
        | aggregate => cases finds
        | column ref' =>
          cases finds with
          | column found =>
            rw [selectSource, if_neg (ne_true_of_eq_false found.single)]
            exact bind_eq_ok.2 ⟨_, column_eq_ok_iff.2 found, rfl⟩

theorem Selects.unique {source : ColumnSource} {selected selected' : SelectSource}
    (selects : scope.Selects source selected) (selects' : scope.Selects source selected') :
    selected = selected' := by
  have ok : scope.selectSource .filter source = .ok selected := selectSource_eq_ok_iff.2 selects
  rw [selectSource_eq_ok_iff.2 selects'] at ok
  exact (Except.ok.inj ok).symm

theorem selectClause_eq_ok_iff {index : Nat} {clause : SelectClause} {entry : ResolvedSelect} :
    scope.selectClause index clause = .ok entry ↔ entry.key = clause.key ∧
      entry.outputName = clause.outputName ∧ scope.Selects clause.source entry.source := by
  constructor
  · intro ok
    obtain ⟨source, selected, same⟩ := bind_eq_ok.1 ok
    cases pure_eq_ok.1 same
    exact ⟨rfl, rfl, selectSource_eq_ok_iff.1 selected⟩
  · obtain ⟨_, source, _⟩ := entry
    rintro ⟨rfl, rfl, selects⟩
    exact bind_eq_ok.2 ⟨source, selectSource_eq_ok_iff.2 selects, rfl⟩

theorem joinKey_eq_ok_iff {side text : String} {key : ColumnRef} :
    scope.joinKey place side text = .ok key ↔ scope.FindsKey side text key := by
  unfold joinKey
  dsimp only
  split
  · rename_i a named
    split_ifs with other
    · refine iff_of_false (fun ok => ?_) fun key => other (key.own a named)
      obtain ⟨_, _, failed⟩ := bind_eq_ok.1 ok
      cases failed
    · rw [column_eq_ok_iff]
      refine ⟨fun found => ⟨fun b mem => ?_, found⟩, FindsKey.found⟩
      rw [named, Option.mem_some_iff] at mem
      exact mem ▸ not_not.1 other
  · rename_i unnamed
    rw [column_eq_ok_iff]
    exact ⟨fun found => ⟨by simp [unnamed], found⟩, FindsKey.found⟩

section Keys

variable {side text : String} {key : ColumnRef}

theorem FindsKey.declares (key_found : scope.FindsKey side text key) :
    scope.declares side = true := by
  obtain ⟨_, found⟩ := key_found
  cases found with
  | named declared _ => exact declared

theorem FindsKey.key_eq (key_found : scope.FindsKey side text key) :
    key = .qualified side (ColumnRef.parse text).column := by
  obtain ⟨_, found⟩ := key_found
  cases found with
  | named => rfl

end Keys

theorem join_eq_ok_iff {default : JoinKind} {index : Nat} {c : JoinCondition} {e : JoinEdge} :
    scope.join default index c = .ok e ↔ scope.Links default c e := by
  unfold join
  dsimp only
  rw [check_eq_ok, check_eq_ok, requireAlias_eq_ok, requireAlias_eq_ok]
  simp only [bind_eq_ok, pure_eq_ok, joinKey_eq_ok_iff]
  constructor
  · rintro ⟨_, _, leftKey, left, rightKey, right, rfl⟩
    exact ⟨rfl, rfl, rfl, left, right⟩
  · obtain ⟨_, _, leftKey, rightKey, _⟩ := e
    rintro ⟨rfl, rfl, rfl, left, right⟩
    exact ⟨left.declares, right.declares, leftKey, left, rightKey, right, rfl⟩

end Scope

theorem ResolvedSelect.sourceNamed?_eq_some {entry : ResolvedSelect} {name : String}
    {source : ColumnSource} : entry.sourceNamed? name = some source ↔
      entry.source = .resolved source ∧ entry.outputName = some name := by
  unfold sourceNamed?
  split
  · rename_i found resolved
    rw [resolved, SelectSource.resolved.injEq]
    split <;> simp_all
  · rename_i ambiguous
    simp [ambiguous]

end TablePlan
