import TablePlan.Proofs.Plan.Soundness

/-!
Groups of compiled plans. Repeated aggregates are dropped, repeated group keys are not: a column
that is named twice among them, in whatever spelling, makes a plan that compiles and never runs.
-/

namespace TablePlan

open Success

theorem Plan.nodup_of_projected_eq_ok {plan : Plan} {data : Datasets} {t : Table} {g : Grouping}
    (grouped : plan.grouping = some g) (ok : plan.projected data = .ok t) :
    g.columnNames.Nodup := by
  rw [projected_eq] at ok
  obtain ⟨joined, _, ok⟩ := bind_eq_ok.1 ok
  obtain ⟨kept, _, ok⟩ := bind_eq_ok.1 ok
  obtain ⟨groups, grouped_ok, _⟩ := bind_eq_ok.1 ok
  rw [grouped_of_some grouped] at grouped_ok
  obtain ⟨made, run, _⟩ := bind_eq_ok.1 grouped_ok
  obtain ⟨_, _, columns, valid⟩ := Table.of_group_eq_ok (Step.run_eq_ok.1 run)
  have distinct := valid.distinct
  rwa [columns] at distinct

namespace Spec

variable {spec : Spec} {schemas : Schemas} {default : JoinKind} {plan : Plan} {g : Grouping}

theorem grouping_of_compile (ok : spec.compile schemas default = .ok plan)
    (grouped : plan.grouping = some g) : g.WellFormed schemas spec.tables ∧
      List.Forall₂ (fun ref text => ref.Qualifies (.parse text)) g.keys spec.group := by
  obtain ⟨resolved, order, output, sort, named, _, _, _, made⟩ := compile_eq_ok.1 ok
  obtain ⟨_, _, rfl⟩ := ResolvedSpec.assemble_eq_ok.1 made
  obtain ⟨tables, bound⟩ := of_resolved_eq_ok named
  obtain ⟨_, rfl⟩ := ResolvedSpec.grouping?_eq_some.1 grouped
  exact ⟨tables ▸ ResolvedSpec.grouping_wellFormed bound grouped, (keptBy_of_resolved named).group⟩

/-- The keys of a compiled group are the group conditions as they resolve, each aggregate stands
there once, and under plain aliases the columns of the group are distinct exactly when no key is
repeated. With distinct columns a group over any table that has the columns that it reads succeeds,
unless an aggregate has no value for some cell; otherwise no run of the plan succeeds. -/
theorem grouping_outcome (ok : spec.compile schemas default = .ok plan)
    (grouped : plan.grouping = some g) :
    List.Forall₂ (fun ref text => ref.Qualifies (.parse text)) g.keys spec.group ∧
    g.aggregates.Nodup ∧
    ((∀ t ∈ spec.tables, '.' ∉ t.aliasName.toList ∧ '(' ∉ t.aliasName.toList) →
      (g.columnNames.Nodup ↔ g.keys.Nodup)) ∧
    (∀ t : Table, t.Valid → (∀ ref ∈ g.refs, ref.text ∈ t.columns) →
      (∃ f cell, g.run t = .error (.stepFailed .aggregate (.table (.typeMismatch f cell)))) ∨
      (g.columnNames.Nodup ∧ ∃ t', g.run t = .ok t') ∨
      (¬ g.columnNames.Nodup ∧
        ∃ name, g.run t = .error (.stepFailed .aggregate (.table (.duplicateColumn name))))) ∧
    (¬ g.columnNames.Nodup → ∀ data, ∃ e, ∀ sorter, plan.execute sorter data = .error e) := by
  obtain ⟨wf, keys⟩ := grouping_of_compile ok grouped
  refine ⟨keys, wf.distinct, wf.nodup_columnNames_iff, fun t => Grouping.run_outcome,
    fun repeated data => ?_⟩
  cases made : plan.projected data with
  | ok t => exact absurd (Plan.nodup_of_projected_eq_ok grouped made) repeated
  | error e => exact ⟨e, Plan.execute_eq_error made⟩

def twice : Spec :=
  { totals with group := ["c.name", "name"] }

theorem grouping_outcome_twice : ∃ plan g, twice.compile totalsSchemas .inner = .ok plan ∧
    plan.grouping = some g ∧ ∀ data, ∃ e, ∀ sorter, plan.execute sorter data = .error e := by
  have compiles : (twice.compile totalsSchemas .inner).toOption.any (fun plan =>
      plan.grouping.any fun g => !decide g.columnNames.Nodup) = true := by decide +kernel
  obtain ⟨plan, made, facts⟩ := exists_of_any_toOption compiles
  obtain ⟨g, grouped, repeated⟩ := (Option.any_eq_true _ _).1 facts
  rw [Bool.not_eq_true', decide_eq_false_iff_not] at repeated
  obtain ⟨_, _, _, _, fails⟩ := grouping_outcome made grouped
  exact ⟨plan, g, made, grouped, fails repeated⟩

end Spec

end TablePlan
