import TablePlan.Proofs.Execution.Outcome
import TablePlan.Proofs.Plan.TableOrder

/-!
Runs of plans that scan their tables in another order. Under distinct aliases each join takes the
same table from the inputs, and so the result has the same rows in the same order.
-/

namespace TablePlan

open Success

namespace Inputs

variable {inputs inputs' rest : Inputs}

theorem exists_take {a : String} {t : Table} (same : ∀ b, inputs'.find? b = inputs.find? b)
    (taken : inputs.take a = .ok (t, rest)) :
    ∃ rest', inputs'.take a = .ok (t, rest') ∧ ∀ b, rest'.find? b = rest.find? b := by
  obtain ⟨found, rfl⟩ := take_eq_ok.1 taken
  refine ⟨_, take_eq_ok.2 ⟨(same a).trans found, rfl⟩, fun b => ?_⟩
  rw [Named.find?_filter_ne, Named.find?_filter_ne, same]

theorem joinAll_of_same {joined t : Table} {edges : List JoinEdge}
    (same : ∀ b, inputs'.find? b = inputs.find? b) (ok : inputs.joinAll joined edges = .ok t) :
    inputs'.joinAll joined edges = .ok t := by
  induction edges generalizing inputs inputs' joined with
  | nil => exact ok
  | cons e edges ih =>
    obtain ⟨⟨right, rest⟩, taken, ok⟩ := bind_eq_ok.1 ok
    obtain ⟨next, step, ok⟩ := bind_eq_ok.1 ok
    obtain ⟨rest', taken', same⟩ := exists_take same taken
    exact bind_eq_ok.2 ⟨(right, rest'), taken', bind_eq_ok.2 ⟨next, step, ih same ok⟩⟩

end Inputs

namespace Plan

variable (plan : Plan) {tables : List TableDecl} {data : Datasets} {t : Table}

theorem joined_tables (distinct : (plan.tables.map TableDecl.aliasName).Nodup)
    (perm : tables.Perm plan.tables) (ok : plan.joined data = .ok t) :
    { plan with tables := tables }.joined data = .ok t := by
  obtain ⟨inputs, loaded, walked⟩ := bind_eq_ok.1 ok
  obtain ⟨⟨root, rest⟩, taken, joined⟩ := bind_eq_ok.1 walked
  obtain ⟨found, rfl⟩ := Inputs.ofTables_eq_ok.1 loaded
  have same (a : String) : (Inputs.declared data tables).find? a =
      (Inputs.declared data plan.tables).find? a := by
    rw [Inputs.find?_declared_eq, Inputs.find?_declared_eq, declaredAs_perm distinct perm]
  obtain ⟨rest', taken', same⟩ := Inputs.exists_take same taken
  exact bind_eq_ok.2 ⟨_, Inputs.ofTables_eq_ok.2 ⟨fun d mem => found d (perm.subset mem), rfl⟩,
    bind_eq_ok.2 ⟨(root, rest'), taken', Inputs.joinAll_of_same same joined⟩⟩

theorem projected_tables (distinct : (plan.tables.map TableDecl.aliasName).Nodup)
    (perm : tables.Perm plan.tables) (ok : plan.projected data = .ok t) :
    { plan with tables := tables }.projected data = .ok t := by
  rw [projected_eq] at ok ⊢
  obtain ⟨joined, made, ok⟩ := bind_eq_ok.1 ok
  exact bind_eq_ok.2 ⟨joined, plan.joined_tables distinct perm made, ok⟩

theorem execute_tables (distinct : (plan.tables.map TableDecl.aliasName).Nodup)
    (perm : tables.Perm plan.tables) {sorter : Sorter} {result : Option Table}
    (ok : plan.execute sorter data = .ok result) :
    { plan with tables := tables }.execute sorter data = .ok result := by
  obtain ⟨projected, made, ok⟩ := bind_eq_ok.1 ok
  exact bind_eq_ok.2 ⟨projected, plan.projected_tables distinct perm made, ok⟩

end Plan

namespace Spec

variable {spec : Spec} {tables : List TableDecl}

/-- The order in which tables are declared is that of the tables of the plan, and nothing else. -/
theorem compile_perm_tables (distinct : (spec.tables.map TableDecl.aliasName).Nodup)
    (perm : tables.Perm spec.tables) (schemas : Schemas) (default : JoinKind) :
    ((∃ plan, spec.compile schemas default = .ok plan) ↔
      ∃ plan, { spec with tables := tables }.compile schemas default = .ok plan) ∧
    ∀ plan, spec.compile schemas default = .ok plan →
      { spec with tables := tables }.compile schemas default = .ok { plan with tables := tables } ∧
      ∀ sorter data result, plan.execute sorter data = .ok result ↔
        { plan with tables := tables }.execute sorter data = .ok result := by
  have distinct' : (tables.map TableDecl.aliasName).Nodup := (perm.map _).nodup_iff.2 distinct
  refine ⟨⟨fun ⟨plan, ok⟩ => ⟨_, spec.compile_tables distinct perm ok⟩,
    fun ⟨plan, ok⟩ => ⟨_, compile_tables { spec with tables := tables } distinct' perm.symm ok⟩⟩,
    fun plan ok => ⟨spec.compile_tables distinct perm ok, fun sorter data result => ?_⟩⟩
  rw [← tables_of_compile ok] at distinct perm
  exact ⟨plan.execute_tables distinct perm,
    Plan.execute_tables { plan with tables := tables } distinct' perm.symm⟩

theorem compile_perm_tables_totals :
    let swapped := totals.tables.reverse
    ∃ plan, totals.compile totalsSchemas .inner = .ok plan ∧
      { totals with tables := swapped }.compile totalsSchemas .inner =
        .ok { plan with tables := swapped } ∧
      ∀ sorter result, plan.execute sorter totalsData = .ok result ↔
        { plan with tables := swapped }.execute sorter totalsData = .ok result := by
  have compiles : (totals.compile totalsSchemas .inner).toOption.any (fun _ => true) = true := by
    decide +kernel
  obtain ⟨plan, made, _⟩ := exists_of_any_toOption compiles
  have distinct : (totals.tables.map TableDecl.aliasName).Nodup := by decide
  obtain ⟨_, same⟩ :=
    compile_perm_tables distinct (List.reverse_perm totals.tables) totalsSchemas .inner
  obtain ⟨made', runs⟩ := same plan made
  exact ⟨plan, made, made', fun sorter => runs sorter totalsData⟩

end Spec

end TablePlan
