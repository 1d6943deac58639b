import TablePlan.Proofs.Resolution.Bound

/-!
Tables declared in another order. Aliases are distinct, so every lookup finds the same columns, and
the owners of a column are the same aliases in another order. Whatever resolves to something then
resolves to the same, at any place: places matter for errors only. A selected column that stays
ambiguous lists its owners in their order.
-/

namespace TablePlan

open Success

structure Scope.Reorders (scope scope' : Scope) : Prop where
  columns : ∀ a, scope'.columns.find? a = scope.columns.find? a
  aliases : scope'.aliases.Perm scope.aliases

namespace Scope

theorem exists_reorders {schemas : Schemas} {tables tables' : List TableDecl} {scope : Scope}
    (distinct : (tables.map TableDecl.aliasName).Nodup) (perm : tables'.Perm tables)
    (made : ofTables schemas tables = .ok scope) :
    ∃ scope', ofTables schemas tables' = .ok scope' ∧ scope.Reorders scope' := by
  have listed (t : TableDecl) (mem : t ∈ tables') := listed_of_ofTables made t (perm.subset mem)
  have made' : ofTables schemas tables' = .ok (declared schemas tables') :=
    ofTables_eq_ok.2 ⟨listed, rfl⟩
  refine ⟨_, made', fun a => ?_, ?_⟩
  · rw [find?_columns made', find?_columns made, declaredAs_perm distinct perm]
  · rw [(ofTables_eq_ok.1 made).2]
    exact perm.map _

variable {scope scope' : Scope} {place place' : Place}

namespace Reorders

variable (same : scope.Reorders scope')

include same

theorem declares_eq (a : String) : scope'.declares a = scope.declares a := by
  rw [declares, declares, same.columns]

theorem has_eq (a column : String) : scope'.has a column = scope.has a column := by
  rw [has, has, same.columns]

theorem owners_perm (column : String) : (scope'.owners column).Perm (scope.owners column) := by
  rw [owners, owners, funext fun a => same.has_eq a column]
  exact same.aliases.filter _

theorem finds {ref ref' : ColumnRef} (found : scope.Finds ref ref') : scope'.Finds ref ref' := by
  cases found with
  | named declared has => exact .named (same.declares_eq _ ▸ declared) (same.has_eq _ _ ▸ has)
  | @bare _ column only =>
    have single := same.owners_perm column
    rw [only, List.perm_singleton] at single
    exact .bare single

theorem column {ref ref' : ColumnRef} (ok : scope.column place ref = .ok ref') :
    scope'.column place' ref = .ok ref' :=
  column_eq_ok_iff.2 (same.finds (column_eq_ok_iff.1 ok))

theorem findsOperand {operand operand' : Operand} (found : scope.FindsOperand operand operand') :
    scope'.FindsOperand operand operand' := by
  cases found with
  | column found => exact .column (same.finds found)
  | literal value => exact .literal value
  | aggregate found =>
    cases found with
    | none => exact .aggregate .none
    | some found => exact .aggregate (.some (same.finds found))

theorem operand {operand operand' : Operand} (ok : scope.operand place operand = .ok operand') :
    scope'.operand place' operand = .ok operand' :=
  operand_eq_ok_iff.2 (same.findsOperand (operand_eq_ok_iff.1 ok))

theorem findsKey {side text : String} {key : ColumnRef} (found : scope.FindsKey side text key) :
    scope'.FindsKey side text key :=
  ⟨found.own, same.finds found.found⟩

theorem join {default : JoinKind} {i j : Nat} {c : JoinCondition} {e : JoinEdge}
    (ok : scope.join default i c = .ok e) : scope'.join default j c = .ok e := by
  obtain ⟨leftAlias, rightAlias, kind, left, right⟩ := join_eq_ok_iff.1 ok
  exact join_eq_ok_iff.2
    ⟨leftAlias, rightAlias, kind, same.findsKey left, same.findsKey right⟩

theorem selectClause {i j : Nat} {clause : SelectClause} {entry : ResolvedSelect}
    {source : ColumnSource} (resolved : entry.source = .resolved source)
    (ok : scope.selectClause i clause = .ok entry) :
    scope'.selectClause j clause = .ok entry := by
  obtain ⟨key, outputName, selects⟩ := selectClause_eq_ok_iff.1 ok
  have found := (resolved ▸ selects).findsOperand
  exact selectClause_eq_ok_iff.2
    ⟨key, outputName, resolved ▸ .resolved (same.findsOperand found)⟩

theorem havingOperand {select : List ResolvedSelect} {operand operand' : Operand}
    (ok : scope.havingOperand select operand = .ok operand') :
    scope'.havingOperand select operand = .ok operand' := by
  refine havingOperand_eq_ok_iff.2 ?_
  cases havingOperand_eq_ok_iff.1 ok with
  | output given => exact .output given
  | table unnamed found => exact .table unnamed (same.findsOperand found)

end Reorders

end Scope

namespace Spec

variable {spec : Spec} {tables : List TableDecl} {schemas : Schemas} {default : JoinKind}

theorem resolve_tables {clauses : Clauses} {resolved : ResolvedSpec}
    (distinct : (spec.tables.map TableDecl.aliasName).Nodup) (perm : tables.Perm spec.tables)
    (plain : ∀ entry ∈ resolved.select, ∃ source, entry.source = .resolved source)
    (ok : spec.resolve schemas default clauses = .ok resolved) :
    ∃ scope, { spec with tables := tables }.resolve schemas default clauses =
      .ok { resolved with tables := tables, scope := scope } := by
  obtain ⟨stages, held⟩ := resolve_eq_ok.1 ok
  obtain ⟨scope', listed, same⟩ := Scope.exists_reorders distinct perm stages.scope
  have plain (i : Nat) (clause : SelectClause) (entry : ResolvedSelect)
      (mem : entry ∈ resolved.select) (ok : resolved.scope.selectClause i clause = .ok entry) :
      scope'.selectClause i clause = .ok entry := by
    obtain ⟨source, resolved⟩ := plain entry mem
    exact same.selectClause resolved ok
  refine ⟨scope', resolve_eq_ok.2 ⟨⟨stages.name, rfl, stages.sort, listed, ?_, ?_, ?_, ?_⟩, ?_⟩⟩
  · exact mapM_of_mapM stages.joins fun _ _ _ => same.join
  · exact mapM_of_mapM stages.select fun _ entry mem => plain _ _ entry mem
  · exact Predicate.resolve?_of (fun _ _ => same.operand) stages.filter
  · exact mapM_of_mapM stages.group fun _ _ _ => same.column
  · exact Predicate.resolve?_of (fun _ _ => same.havingOperand) held

end Spec

end TablePlan
