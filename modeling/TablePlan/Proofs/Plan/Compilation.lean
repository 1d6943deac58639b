import TablePlan.Compile
import TablePlan.Proofs.JoinOrder.Shape
import TablePlan.Proofs.Resolution.Bound
import TablePlan.Proofs.Resolution.Output

/-!
The plans that compilation makes. Each stage is a check and a part of the plan; together they make
a plan whose every step reads what the steps before it leave.
-/

namespace TablePlan

open Success

theorem Predicate.operands_conjuncts (p : Predicate) :
    p.conjuncts.flatMap operands = p.operands := by
  cases p with
  | and items => rw [conjuncts, operands, operandsOfAll_eq_flatMap]
  | _ => simp [conjuncts]

theorem Predicate.flatMap_operands_conjunction? (clauses : List Predicate) :
    (conjunction? clauses).toList.flatMap operands = clauses.flatMap operands := by
  have flat : (clauses.flatMap conjuncts).flatMap operands = clauses.flatMap operands := by
    rw [List.flatMap_assoc]
    simp only [operands_conjuncts]
  rw [← flat]
  unfold conjunction?
  split
  · rename_i none
    rw [none]
    rfl
  · rename_i single
    rw [single]
    rfl
  · exact (List.flatMap_singleton ..).trans (operandsOfAll_eq_flatMap _)

theorem Predicate.operands_conjunction? {clauses : List Predicate} {p : Predicate}
    (all : conjunction? clauses = some p) : p.operands = clauses.flatMap operands := by
  rw [← flatMap_operands_conjunction?, all]
  exact (List.flatMap_singleton ..).symm

namespace ResolvedSpec

variable {spec : ResolvedSpec} {order : JoinOrder} {output : List OutputColumn}
  {sort : List SortKey} {plan : Plan}

def assembled (spec : ResolvedSpec) (order : JoinOrder) (output : List OutputColumn)
    (sort : List SortKey) : Plan where
  name := spec.name
  root := order.root
  tables := spec.tables
  joins := order.steps
  filter := Predicate.conjunction?
    (order.residual.map JoinEdge.condition ++ spec.filter.toList)
  grouping := spec.grouping?
  having := spec.having
  output := output
  sort := sort

theorem checkFilter_eq_ok :
    spec.checkFilter = .ok () ↔ ∀ p ∈ spec.filter, p.aggregates = [] := by
  unfold checkFilter
  cases filter : spec.filter with
  | none => simp
  | some p =>
    rw [Option.map_some, Option.getD_some]
    cases calls : p.aggregates with
    | nil => simp [calls]
    | cons call rest => simp [calls]

theorem checkHaving_eq_ok : spec.checkHaving = .ok () ↔ ∀ p ∈ spec.having,
    spec.isAggregated = true ∧ ∀ ref, .column ref ∈ p.operands → ref ∈ spec.group := by
  have outside (p : Predicate) : p.operands.findSome? spec.isUngrouped = none ↔
      ∀ ref, .column ref ∈ p.operands → ref ∈ spec.group := by
    rw [List.findSome?_eq_none_iff]
    constructor
    · intro none ref mem
      simpa [isUngrouped] using none _ mem
    · intro inside operand mem
      cases operand with
      | column ref => simpa [isUngrouped] using inside ref mem
      | literal _ => rfl
      | aggregate _ => rfl
  unfold checkHaving
  cases having : spec.having with
  | none => simp
  | some p =>
    cases aggregated : spec.isAggregated with
    | false => simp
    | true =>
      simp only [Bool.not_true, Bool.false_eq_true, if_false, Option.mem_some_iff, forall_eq',
        true_and, ← outside]
      split <;> rename_i found <;> rw [found] <;> simp

theorem assemble_eq_ok : spec.assemble order output sort = .ok plan ↔
    (∀ p ∈ spec.filter, p.aggregates = []) ∧
      (∀ p ∈ spec.having, spec.isAggregated = true ∧
        ∀ ref, .column ref ∈ p.operands → ref ∈ spec.group) ∧
      plan = spec.assembled order output sort := by
  unfold assemble
  rw [check_eq_ok, check_eq_ok, checkFilter_eq_ok, checkHaving_eq_ok, pure_eq_ok]
  exact and_congr_right fun _ => and_congr_right fun _ => eq_comm

def planned (spec : ResolvedSpec) : Except CompileError Plan := do
  let order ← spec.joinOrder.mapError .plan
  let output ← spec.outputColumns.mapError .output
  let sort ← (spec.sortKeys output).mapError .resolution
  (spec.assemble order output sort).mapError .plan

theorem planned_eq_ok : spec.planned = .ok plan ↔ ∃ order output sort,
    spec.joinOrder = .ok order ∧ spec.outputColumns = .ok output ∧
      spec.sortKeys output = .ok sort ∧ spec.assemble order output sort = .ok plan := by
  unfold planned
  simp only [bind_eq_ok, mapError_eq_ok]
  constructor
  · rintro ⟨order, ordered, output, selected, sort, sorted, made⟩
    exact ⟨order, output, sort, ordered, selected, sorted, made⟩
  · rintro ⟨order, output, sort, ordered, selected, sorted, made⟩
    exact ⟨order, ordered, output, selected, sort, sorted, made⟩

end ResolvedSpec

theorem Spec.compile_eq_planned (spec : Spec) (schemas : Schemas) (default : JoinKind) :
    spec.compile schemas default = spec.resolved schemas default >>= ResolvedSpec.planned :=
  rfl

theorem Spec.compile_eq_ok {spec : Spec} {schemas : Schemas} {default : JoinKind} {plan : Plan} :
    spec.compile schemas default = .ok plan ↔ ∃ resolved order output sort,
      spec.resolved schemas default = .ok resolved ∧ resolved.joinOrder = .ok order ∧
      resolved.outputColumns = .ok output ∧ resolved.sortKeys output = .ok sort ∧
      resolved.assemble order output sort = .ok plan := by
  rw [compile_eq_planned, bind_eq_ok]
  simp only [ResolvedSpec.planned_eq_ok, exists_and_left]

theorem Spec.compile_eq_ok_iff_stages {spec : Spec} {schemas : Schemas} {default : JoinKind}
    {plan : Plan} : spec.compile schemas default = .ok plan ↔ ∃ clauses resolved,
      Clauses.ofSpec spec = .ok clauses ∧ spec.Stages schemas default clauses resolved ∧
      Predicate.resolve? (resolved.scope.havingOperand resolved.select) clauses.having =
        .ok resolved.having ∧
      resolved.planned = .ok plan := by
  rw [compile_eq_planned, bind_eq_ok]
  simp only [resolved_eq_ok]
  constructor
  · rintro ⟨resolved, ⟨clauses, read, stages, held⟩, planned⟩
    exact ⟨clauses, resolved, read, stages, held, planned⟩
  · rintro ⟨clauses, resolved, read, stages, held, planned⟩
    exact ⟨resolved, ⟨clauses, read, stages, held⟩, planned⟩

theorem Spec.of_resolved_eq_ok {spec : Spec} {schemas : Schemas} {default : JoinKind}
    {resolved : ResolvedSpec} (ok : spec.resolved schemas default = .ok resolved) :
    resolved.tables = spec.tables ∧ resolved.Bound schemas := by
  obtain ⟨clauses, _, ok⟩ := bind_eq_ok.1 ok
  exact Spec.bound_of_resolve (mapError_eq_ok.1 ok)

structure Grouping.WellFormed (schemas : Schemas) (tables : List TableDecl) (g : Grouping) :
    Prop where
  keys : ∀ ref ∈ g.keys, ref.Declared schemas tables
  arguments : ∀ call ∈ g.aggregates, ∀ ref ∈ call.argument, ref.Declared schemas tables
  distinct : g.aggregates.Nodup

/-- What a row of a group answers: its keys, its aggregates and literals. -/
def Grouping.Answers (g : Grouping) : Operand → Prop
  | .column ref => ref ∈ g.keys
  | .aggregate call => call ∈ g.aggregates
  | .literal _ => True

namespace Plan

def scanned (plan : Plan) : List String :=
  plan.root :: plan.joins.map JoinEdge.rightAlias

/-- Every step of a plan reads what the steps before it leave. -/
structure WellFormed (schemas : Schemas) (plan : Plan) : Prop where
  scanned : plan.scanned.Perm (plan.tables.map TableDecl.aliasName)
  reaches : ∀ k step, plan.joins[k]? = some step → step.leftAlias ∈ plan.scanned.take (k + 1)
  joins : ∀ e ∈ plan.joins, e.Bound schemas plan.tables
  filter : ∀ p ∈ plan.filter, ∀ ref ∈ p.refs, ref.Declared schemas plan.tables
  filter_plain : ∀ p ∈ plan.filter, p.aggregates = []
  grouping : ∀ g ∈ plan.grouping, g.WellFormed schemas plan.tables
  having : ∀ p ∈ plan.having, ∃ g, plan.grouping = some g ∧
    ∀ operand ∈ p.operands, g.Answers operand
  grouped_output : ∀ g ∈ plan.grouping, ∀ o ∈ plan.output, g.Answers o.source.toOperand
  plain_output : plan.grouping = none → ∀ o ∈ plan.output,
    ∃ ref, o.source = .column ref ∧ ref.Declared schemas plan.tables
  names : plan.outputNames.Nodup
  sort : ∀ k ∈ plan.sort, k.column ∈ plan.outputNames

end Plan

namespace ResolvedSpec

variable {spec : ResolvedSpec} {schemas : Schemas} {order : JoinOrder}
  {output : List OutputColumn} {sort : List SortKey}

theorem grouping?_eq_some {g : Grouping} : spec.grouping? = some g ↔
    spec.isAggregated = true ∧ g = ⟨spec.group, spec.aggregates⟩ := by
  unfold grouping?
  split
  · rename_i aggregated
    simp [aggregated, eq_comm]
  · rename_i plain
    simp [plain]

theorem grouping_wellFormed (bound : spec.Bound schemas) {g : Grouping}
    (grouped : spec.grouping? = some g) : g.WellFormed schemas spec.tables := by
  obtain ⟨_, rfl⟩ := grouping?_eq_some.1 grouped
  exact ⟨bound.group, bound.aggregates, nodup_aggregates spec⟩

theorem aggregates_eq_nil (plain : spec.grouping? = none) : spec.aggregates = [] := by
  unfold grouping? isAggregated at plain
  simp only [ite_eq_right_iff, reduceCtorEq, imp_false, Bool.or_eq_true, not_or] at plain
  simpa using plain.2

theorem mem_operands_filter {p : Predicate}
    (filter : p ∈ (spec.assembled order output sort).filter) {operand : Operand} :
    operand ∈ p.operands ↔
      (∃ e ∈ order.residual, operand = .column e.leftKey ∨ operand = .column e.rightKey) ∨
      ∃ q ∈ spec.filter, operand ∈ q.operands := by
  rw [Predicate.operands_conjunction? filter]
  simp [JoinEdge.condition, Predicate.operands]

theorem of_outputColumns_eq_ok (bound : spec.Bound schemas)
    (selected : spec.outputColumns = .ok output) : ∀ o ∈ output,
      (∀ ref ∈ o.source.toOperand.refs, ref.Declared schemas spec.tables) ∧
      (∀ call, o.source = .aggregate call → call ∈ spec.aggregates) ∧
      (spec.isAggregated = true → ∀ ref, o.source = .column ref → ref ∈ spec.group) := by
  intro o mem
  obtain ⟨entry, mem, source⟩ := exists_entry_of_outputColumns selected o mem
  obtain ⟨resolved, grouped⟩ := selectedSource_eq_ok.1 source
  exact ⟨bound.select entry mem _ resolved,
    fun call same => mem_aggregates_of_select mem (same ▸ resolved), grouped⟩

theorem bound_of_joinOrder (bound : spec.Bound schemas) (ordered : spec.joinOrder = .ok order) :
    (∀ e ∈ order.steps, e.Bound schemas spec.tables) ∧
      ∀ e ∈ order.residual, e.Bound schemas spec.tables := by
  obtain ⟨picks, greedy⟩ := JoinOrder.exists_greedy
    (fun e mem => (bound.joins e mem).ends_mem) ordered
  refine ⟨fun step mem => ?_, fun e mem => bound.joins e (greedy.mem_of_mem_residual mem)⟩
  obtain ⟨k, at_k⟩ := List.mem_iff_getElem?.1 mem
  obtain ⟨e, written, rfl | rfl, _⟩ := greedy.exists_pick at_k
  · exact bound.joins _ written
  · exact (bound.joins e written).reversed

theorem filter_declared (bound : spec.Bound schemas)
    (residual : ∀ e ∈ order.residual, e.Bound schemas spec.tables) :
    ∀ p ∈ (spec.assembled order output sort).filter, ∀ ref ∈ p.refs,
      ref.Declared schemas spec.tables := by
  intro p filter ref read
  obtain ⟨operand, mem, read⟩ := Predicate.mem_refs.1 read
  obtain ⟨e, left, rfl | rfl⟩ | ⟨q, filter, mem⟩ := (mem_operands_filter filter).1 mem
  · exact List.mem_singleton.1 read ▸ (residual e left).left_declared
  · exact List.mem_singleton.1 read ▸ (residual e left).right_declared
  · exact bound.filter q filter ref (Predicate.mem_refs.2 ⟨operand, mem, read⟩)

theorem filter_plain (plain : ∀ p ∈ spec.filter, p.aggregates = []) :
    ∀ p ∈ (spec.assembled order output sort).filter, p.aggregates = [] := by
  intro p filter
  refine List.filterMap_eq_nil_iff.2 fun operand mem => ?_
  obtain ⟨e, _, rfl | rfl⟩ | ⟨q, filter, mem⟩ := (mem_operands_filter filter).1 mem
  · rfl
  · rfl
  · exact List.filterMap_eq_nil_iff.1 (plain q filter) operand mem

theorem having_answered (held : ∀ p ∈ spec.having, spec.isAggregated = true ∧
      ∀ ref, .column ref ∈ p.operands → ref ∈ spec.group) :
    ∀ p ∈ spec.having, ∃ g, spec.grouping? = some g ∧
      ∀ operand ∈ p.operands, g.Answers operand := by
  intro p having
  obtain ⟨aggregated, columns⟩ := held p having
  refine ⟨_, grouping?_eq_some.2 ⟨aggregated, rfl⟩, fun operand mem => ?_⟩
  cases operand with
  | column ref => exact columns ref mem
  | aggregate call => exact mem_aggregates_of_having having mem
  | literal _ => trivial

theorem output_answered (bound : spec.Bound schemas)
    (selected : spec.outputColumns = .ok output) :
    (∀ g ∈ spec.grouping?, ∀ o ∈ output, g.Answers o.source.toOperand) ∧
      (spec.grouping? = none → ∀ o ∈ output,
        ∃ ref, o.source = .column ref ∧ ref.Declared schemas spec.tables) := by
  have sources := of_outputColumns_eq_ok bound selected
  constructor
  · intro g grouped o mem
    obtain ⟨aggregated, rfl⟩ := grouping?_eq_some.1 grouped
    obtain ⟨_, calls, columns⟩ := sources o mem
    cases source : o.source with
    | column ref => exact columns aggregated ref source
    | aggregate call => exact calls call source
  · intro ungrouped o mem
    obtain ⟨declared, calls, _⟩ := sources o mem
    cases source : o.source with
    | column ref =>
      have read : ref ∈ o.source.toOperand.refs := by
        simp [source, ColumnSource.toOperand, Operand.refs]
      exact ⟨ref, rfl, declared ref read⟩
    | aggregate call =>
      have call_mem := calls call source
      rw [aggregates_eq_nil ungrouped] at call_mem
      cases call_mem

theorem assembled_wellFormed (bound : spec.Bound schemas)
    (distinct : (spec.tables.map TableDecl.aliasName).Nodup) (ordered : spec.joinOrder = .ok order)
    (selected : spec.outputColumns = .ok output) (sorted : spec.sortKeys output = .ok sort)
    (plain : ∀ p ∈ spec.filter, p.aggregates = [])
    (held : ∀ p ∈ spec.having, spec.isAggregated = true ∧
      ∀ ref, .column ref ∈ p.operands → ref ∈ spec.group) :
    (spec.assembled order output sort).WellFormed schemas := by
  obtain ⟨picks, greedy⟩ := JoinOrder.exists_greedy
    (fun e mem => (bound.joins e mem).ends_mem) ordered
  obtain ⟨steps, residual⟩ := bound_of_joinOrder bound ordered
  obtain ⟨grouped_output, plain_output⟩ := output_answered bound selected
  exact {
    scanned := JoinOrder.scanned_perm distinct ordered
    reaches := fun k step at_k => (greedy.exists_pick at_k).choose_spec.2.2
    joins := steps
    filter := filter_declared bound residual
    filter_plain := filter_plain plain
    grouping := fun _ => grouping_wellFormed bound
    having := having_answered held
    grouped_output := grouped_output
    plain_output := plain_output
    names := (outputColumns_eq_ok.1 selected).1
    sort := mem_names_of_sortKeys sorted }

theorem wellFormed_of_planned {plan : Plan} (bound : spec.Bound schemas)
    (distinct : (spec.tables.map TableDecl.aliasName).Nodup) (ok : spec.planned = .ok plan) :
    plan.WellFormed schemas := by
  obtain ⟨order, output, sort, ordered, selected, sorted, made⟩ := planned_eq_ok.1 ok
  obtain ⟨plain, held, rfl⟩ := assemble_eq_ok.1 made
  exact assembled_wellFormed bound distinct ordered selected sorted plain held

end ResolvedSpec

namespace Spec

variable {spec : Spec} {schemas : Schemas} {default : JoinKind} {plan : Plan}

theorem tables_of_compile (ok : spec.compile schemas default = .ok plan) :
    plan.tables = spec.tables := by
  obtain ⟨resolved, order, output, sort, named, _, _, _, made⟩ := compile_eq_ok.1 ok
  obtain ⟨_, _, rfl⟩ := ResolvedSpec.assemble_eq_ok.1 made
  exact (of_resolved_eq_ok named).1

theorem listed_of_compile (ok : spec.compile schemas default = .ok plan) :
    ∀ t ∈ spec.tables, ∃ columns, schemas.find? t.physicalName = some columns := by
  obtain ⟨_, _, _, stages, _⟩ := compile_eq_ok_iff_stages.1 ok
  exact Scope.listed_of_ofTables stages.scope

theorem wellFormed_of_compile (ok : spec.compile schemas default = .ok plan)
    (distinct : (spec.tables.map TableDecl.aliasName).Nodup) : plan.WellFormed schemas := by
  obtain ⟨resolved, named, ok⟩ := bind_eq_ok.1 ok
  obtain ⟨tables, bound⟩ := of_resolved_eq_ok named
  rw [← tables] at distinct
  exact ResolvedSpec.wellFormed_of_planned bound distinct ok

end Spec

end TablePlan
