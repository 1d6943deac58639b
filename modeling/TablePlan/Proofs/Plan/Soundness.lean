import TablePlan.Proofs.Execution.Outcome
import TablePlan.Proofs.Resolution.Naming

/-!
What every compiled plan owes to its spec. It reads declared columns only, its conditions and output
columns ask for nothing that its groups do not answer, and its output columns and sort keys are
those of the spec, in order.
-/

namespace TablePlan

open Success

/-- Whether an output column is what a selected entry asks for, under the name that it asks for. -/
def OutputColumn.Answers (o : OutputColumn) (entry : SelectEntry) : Prop :=
  o.name = entry.outputName.getD o.source.defaultName ∧
    ∃ source, ColumnSource.read entry.source = .ok source ∧ o.source.Qualifies source

def SortKey.Answers (output : List OutputColumn) (k : SortKey) (c : SortCondition) : Prop :=
  k.direction = c.direction ∧ sortColumn? output c.column = some k.column

/-- A plan that serves a spec over tables with known columns. -/
structure Spec.ServedBy (spec : Spec) (schemas : Schemas) (plan : Plan) : Prop where
  reads : ∀ ref ∈ plan.reads, ref.Declared schemas spec.tables
  having_reads : ∀ p ∈ plan.having, ∀ ref ∈ p.refs, ref.Declared schemas spec.tables
  join_keys : ∀ e ∈ plan.joins,
    e.leftKey.aliasName = some e.leftAlias ∧ e.rightKey.aliasName = some e.rightAlias
  filter : ∀ p ∈ plan.filter, p.aggregates = []
  ungrouped : plan.grouping = none →
    plan.having = none ∧ ∀ o ∈ plan.output, ∃ ref, o.source = .column ref
  grouped : ∀ g ∈ plan.grouping, g.aggregates.Nodup ∧
    (∀ o ∈ plan.output, g.Answers o.source.toOperand) ∧
    ∀ p ∈ plan.having, ∀ operand ∈ p.operands, g.Answers operand
  names : plan.outputNames.Nodup
  output : List.Forall₂ OutputColumn.Answers plan.output spec.select
  sort : List.Forall₂ (SortKey.Answers plan.output) plan.sort spec.sort
  sort_names : ∀ k ∈ plan.sort, k.column ∈ plan.outputNames

namespace Plan.WellFormed

variable {plan : Plan} {schemas : Schemas} (wf : plan.WellFormed schemas)

include wf

theorem having_declared : ∀ p ∈ plan.having, ∀ ref ∈ p.refs, ref.Declared schemas plan.tables := by
  intro p having ref read
  obtain ⟨g, grouping, answers⟩ := wf.having p having
  obtain ⟨operand, mem, read⟩ := Predicate.mem_refs.1 read
  exact (wf.grouping g grouping).refs_declared ref ((answers operand mem).refs_subset read)

theorem having_eq_none (ungrouped : plan.grouping = none) : plan.having = none := by
  cases having : plan.having with
  | none => rfl
  | some p =>
    obtain ⟨g, grouping, _⟩ := wf.having p having
    cases ungrouped.symm.trans grouping

end Plan.WellFormed

namespace Spec

variable {spec : Spec} {schemas : Schemas} {default : JoinKind} {plan : Plan}

theorem output_of_compile (ok : spec.compile schemas default = .ok plan) :
    List.Forall₂ OutputColumn.Answers plan.output spec.select ∧
      List.Forall₂ (SortKey.Answers plan.output) plan.sort spec.sort := by
  obtain ⟨resolved, order, output, sort, named, _, selected, sorted, made⟩ := compile_eq_ok.1 ok
  obtain ⟨_, _, rfl⟩ := ResolvedSpec.assemble_eq_ok.1 made
  have kept := keptBy_of_resolved named
  constructor
  · have outputs := (ResolvedSpec.outputColumns_eq_ok.1 selected).2.flip
    refine (forall₂_trans outputs kept.select).imp ?_
    rintro o entry ⟨found, ⟨selects, name⟩, written, source, read, qualifies⟩
    obtain ⟨resolves, _⟩ := ResolvedSpec.selectedSource_eq_ok.1 selects
    exact ⟨written ▸ name, source, read, qualifies _ resolves⟩
  · exact kept.sort ▸ (ResolvedSpec.sortKeys_eq_ok sorted).flip

/-- Every compiled plan serves its spec. -/
theorem servedBy_of_compile (ok : spec.compile schemas default = .ok plan)
    (distinct : (spec.tables.map TableDecl.aliasName).Nodup) : spec.ServedBy schemas plan := by
  have wf := wellFormed_of_compile ok distinct
  have tables := tables_of_compile ok
  obtain ⟨output, sort⟩ := output_of_compile ok
  exact {
    reads := tables ▸ wf.reads_declared
    having_reads := tables ▸ wf.having_declared
    join_keys := fun e mem => ⟨(wf.joins e mem).left, (wf.joins e mem).right⟩
    filter := wf.filter_plain
    ungrouped := by
      intro ungrouped
      refine ⟨wf.having_eq_none ungrouped, fun o mem => ?_⟩
      obtain ⟨ref, source, _⟩ := wf.plain_output ungrouped o mem
      exact ⟨ref, source⟩
    grouped := by
      intro g grouping
      refine ⟨(wf.grouping g grouping).distinct, wf.grouped_output g grouping, fun p having => ?_⟩
      obtain ⟨g', grouping', answers⟩ := wf.having p having
      cases Option.some.inj (grouping.symm.trans grouping')
      exact answers
    names := wf.names
    output := output
    sort := sort
    sort_names := wf.sort }

def ranked : Spec :=
  { totals with having := ["min(o.state) != 'late'"], sort := [⟨"orders", .desc⟩] }

theorem servedBy_of_compile_ranked : ∃ plan, ranked.compile totalsSchemas .inner = .ok plan ∧
    ranked.ServedBy totalsSchemas plan := by
  have compiles : (ranked.compile totalsSchemas .inner).toOption.any (fun _ => true) = true := by
    decide +kernel
  obtain ⟨plan, made, _⟩ := exists_of_any_toOption compiles
  exact ⟨plan, made, servedBy_of_compile made (by decide)⟩

end Spec

end TablePlan
