import TablePlan.Compile
import TablePlan.Proofs.Success

/-!
The stages of reading and resolution. The conditions on groups are resolved last: they read what is
selected, and all else is resolved without them.
-/

namespace TablePlan

open Success

theorem Clauses.ofSpec_eq_ok {spec : Spec} {clauses : Clauses} : ofSpec spec = .ok clauses ↔
    spec.select.mapM SelectEntry.read = .ok clauses.select ∧
      Predicate.readAll? spec.filter = .ok clauses.filter ∧
      Predicate.readAll? spec.having = .ok clauses.having := by
  rw [ofSpec]
  simp only [bind_eq_ok, pure_eq_ok]
  constructor
  · rintro ⟨select, selected, filter, filtered, having, held, rfl⟩
    exact ⟨selected, filtered, held⟩
  · rintro ⟨selected, filtered, held⟩
    exact ⟨_, selected, _, filtered, _, held, rfl⟩

namespace Spec

variable {spec : Spec} {schemas : Schemas} {default : JoinKind} {clauses : Clauses}
  {resolved : ResolvedSpec}

/-- Whether a spec resolves to another one, but for its conditions on groups. -/
structure Stages (spec : Spec) (schemas : Schemas) (default : JoinKind) (clauses : Clauses)
    (resolved : ResolvedSpec) : Prop where
  name : resolved.name = spec.name
  tables : resolved.tables = spec.tables
  sort : resolved.sort = spec.sort
  scope : Scope.ofTables schemas spec.tables = .ok resolved.scope
  joins : (spec.joins.zipIdx.mapM fun (c, i) => resolved.scope.join default i c) =
    .ok resolved.joins
  select : (clauses.select.zipIdx.mapM fun (c, i) => resolved.scope.selectClause i c) =
    .ok resolved.select
  filter : Predicate.resolve? (resolved.scope.operand .filter) clauses.filter = .ok resolved.filter
  group : (spec.group.zipIdx.mapM fun (text, i) => resolved.scope.column (.group i) (.parse text)) =
    .ok resolved.group

theorem Stages.resolve_eq (stages : spec.Stages schemas default clauses resolved) :
    spec.resolve schemas default clauses =
      (Predicate.resolve? (resolved.scope.havingOperand resolved.select) clauses.having).map
        fun having => { resolved with having := having } := by
  obtain ⟨name, tables, sort, scope, joins, select, filter, group⟩ := stages
  rw [resolve, scope, ok_bind, joins, ok_bind, select, ok_bind, filter, ok_bind, group, ok_bind,
    ← name, ← tables, ← sort]
  cases Predicate.resolve? (resolved.scope.havingOperand resolved.select) clauses.having <;> rfl

theorem resolve_eq_ok : spec.resolve schemas default clauses = .ok resolved ↔
    spec.Stages schemas default clauses resolved ∧
      Predicate.resolve? (resolved.scope.havingOperand resolved.select) clauses.having =
        .ok resolved.having := by
  constructor
  · intro ok
    obtain ⟨scope, listed, ok⟩ := bind_eq_ok.1 ok
    obtain ⟨joins, joined, ok⟩ := bind_eq_ok.1 ok
    obtain ⟨select, selected, ok⟩ := bind_eq_ok.1 ok
    obtain ⟨filter, filtered, ok⟩ := bind_eq_ok.1 ok
    obtain ⟨group, grouped, ok⟩ := bind_eq_ok.1 ok
    obtain ⟨having, held, ok⟩ := bind_eq_ok.1 ok
    cases pure_eq_ok.1 ok
    exact ⟨⟨rfl, rfl, rfl, listed, joined, selected, filtered, grouped⟩, held⟩
  · rintro ⟨stages, held⟩
    rw [stages.resolve_eq, held]
    rfl

theorem resolved_eq_ok : spec.resolved schemas default = .ok resolved ↔ ∃ clauses,
    Clauses.ofSpec spec = .ok clauses ∧ spec.Stages schemas default clauses resolved ∧
      Predicate.resolve? (resolved.scope.havingOperand resolved.select) clauses.having =
        .ok resolved.having := by
  simp only [Spec.resolved, bind_eq_ok, mapError_eq_ok, resolve_eq_ok]

end Spec

end TablePlan
