import TablePlan.Proofs.Execution.Joining
import TablePlan.Proofs.Table.Grouping
import TablePlan.Proofs.Table.Sorting

/-!
Outcomes of compiled plans. Over data that the schemas describe a plan makes a table of its output
columns, or an aggregate has no value for some cell; only a sort of mixed cells may still give up.
Without a table or a column that it reads, a plan fails even when no row would reach it.
-/

namespace TablePlan

open Success

def Table.kept (t : Table) (wanted : Option Predicate) : Table :=
  ⟨t.columns, t.rows.filter fun row => wanted.all fun p => p.truth t.columns row == some true⟩

theorem Table.valid_kept {t : Table} (valid : t.Valid) (wanted : Option Predicate) :
    (t.kept wanted).Valid where
  distinct := valid.distinct
  width row mem := valid.width row (List.mem_filter.1 mem).1

theorem runIf_filter_eq_ok {wanted : Option Predicate} {step : Step} {t t' : Table} :
    runIf wanted (fun t p => step.run (t.filter p)) t = .ok t' ↔
      (∀ p ∈ wanted, t.Valid ∧ ∀ name ∈ p.columnNames, name ∈ t.columns) ∧ t' = t.kept wanted := by
  cases wanted with
  | none =>
    simp only [runIf, Table.kept, Option.all_none, List.filter_true, Except.ok.injEq,
      Option.mem_def, reduceCtorEq, false_implies, implies_true, true_and]
    exact eq_comm
  | some p => simp [runIf, Step.run_eq_ok, Table.filter_eq_ok, Table.kept, and_assoc]

namespace Predicate

theorem columnNames_of_plain {p : Predicate} (plain : p.aggregates = []) :
    p.columnNames = p.refs.map ColumnRef.text := by
  have plain := List.filterMap_eq_nil_iff.1 plain
  unfold columnNames refs
  revert plain
  induction p.operands with
  | nil => exact fun _ => rfl
  | cons operand operands ih =>
    intro plain
    rw [List.forall_mem_cons] at plain
    rw [List.flatMap_cons, List.map_append, ← ih plain.2]
    cases operand with
    | column ref => rfl
    | literal _ => rfl
    | aggregate call => cases plain.1

end Predicate

def Grouping.refs (g : Grouping) : List ColumnRef :=
  g.keys ++ g.aggregates.flatMap fun call => call.argument.toList

theorem Grouping.WellFormed.refs_declared {schemas : Schemas} {tables : List TableDecl}
    {g : Grouping} (wf : g.WellFormed schemas tables) :
    ∀ ref ∈ g.refs, ref.Declared schemas tables := by
  intro ref mem
  obtain key | argument := List.mem_append.1 mem
  · exact wf.keys ref key
  · obtain ⟨call, mem, argument⟩ := List.mem_flatMap.1 argument
    exact wf.arguments call mem ref (Option.mem_toList.1 argument)

theorem Grouping.WellFormed.nodup_columnNames_iff {schemas : Schemas} {tables : List TableDecl}
    {g : Grouping} (wf : g.WellFormed schemas tables)
    (plain : ∀ t ∈ tables, '.' ∉ t.aliasName.toList ∧ '(' ∉ t.aliasName.toList) :
    g.columnNames.Nodup ↔ g.keys.Nodup := by
  have isPlain {ref : ColumnRef} (declared : ref.Declared schemas tables) : ref.IsPlain := by
    obtain ⟨t, mem, named, _⟩ := declared
    exact ⟨t.aliasName, named, (plain t mem).1⟩
  have plainCall {call : AggregateCall} (mem : call ∈ g.aggregates) : call.IsPlain :=
    fun ref argument => isPlain (wf.arguments call mem ref argument)
  constructor
  · exact fun distinct => (List.nodup_append.1 distinct).1.of_map
  · refine fun keys => List.nodup_append.2 ⟨?_, ?_, ?_⟩
    · exact List.Nodup.map_on (fun ref mem ref' mem' same => (ColumnRef.text_inj
        (isPlain (wf.keys ref mem)) (isPlain (wf.keys ref' mem'))).1 same) keys
    · exact List.Nodup.map_on (fun call mem call' mem' same =>
        (AggregateCall.label_inj (plainCall mem) (plainCall mem')).1 same) wf.distinct
    · intro name mem name' mem' same
      obtain ⟨ref, key, rfl⟩ := List.mem_map.1 mem
      obtain ⟨call, _, rfl⟩ := List.mem_map.1 mem'
      obtain ⟨t, mem_t, named, _⟩ := wf.keys ref key
      have written : ref = .qualified t.aliasName ref.column := by
        rw [ColumnRef.qualified, ← named]
      rw [written] at same
      exact AggregateCall.label_ne_text call (plain t mem_t) same.symm

theorem Grouping.Answers.refs_subset {g : Grouping} {operand : Operand}
    (answers : g.Answers operand) : operand.refs ⊆ g.refs := by
  intro ref read
  cases operand with
  | column key =>
    cases List.mem_singleton.1 read
    exact List.mem_append_left _ answers
  | literal _ => cases read
  | aggregate call => exact List.mem_append_right _ (List.mem_flatMap.2 ⟨call, answers, read⟩)

theorem Grouping.Answers.columnName_mem {g : Grouping} {operand : Operand}
    (answers : g.Answers operand) {name : String} (read : operand.columnName? = some name) :
    name ∈ g.columnNames := by
  cases operand with
  | column ref =>
    cases read
    exact List.mem_append_left _ (List.mem_map_of_mem answers)
  | literal _ => cases read
  | aggregate call =>
    cases read
    exact List.mem_append_right _ (List.mem_map_of_mem answers)

theorem Grouping.run_outcome {g : Grouping} {t : Table} (valid : t.Valid)
    (present : ∀ ref ∈ g.refs, ref.text ∈ t.columns) :
    (∃ f cell, g.run t = .error (.stepFailed .aggregate (.table (.typeMismatch f cell)))) ∨
      (g.columnNames.Nodup ∧ ∃ t', g.run t = .ok t') ∨
      (¬ g.columnNames.Nodup ∧
        ∃ name, g.run t = .error (.stepFailed .aggregate (.table (.duplicateColumn name)))) := by
  have keys : ∀ name ∈ g.keys.map ColumnRef.text, name ∈ t.columns :=
    List.forall_mem_map.2 fun ref mem => present ref (List.mem_append_left _ mem)
  have arguments : ∀ call ∈ g.aggregates, ∀ ref ∈ call.argument, ref.text ∈ t.columns :=
    fun call mem ref argument => present ref
      (List.mem_append_right _ (List.mem_flatMap.2 ⟨call, mem, Option.mem_toList.2 argument⟩))
  unfold run
  obtain ⟨f, cell, failed⟩ | ⟨distinct, t', made⟩ | ⟨repeated, name, failed⟩ :=
    Table.group_outcome valid keys arguments
  · exact .inl ⟨f, cell, by rw [failed]; rfl⟩
  · exact .inr (.inl ⟨distinct, t', by rw [made]; rfl⟩)
  · exact .inr (.inr ⟨repeated, name, by rw [failed]; rfl⟩)

/-- The table of the alias of a reference does not have its column, or is missing. -/
def Datasets.Lacks (data : Datasets) (tables : List TableDecl) (ref : ColumnRef) : Prop :=
  ∃ t ∈ tables, ref.aliasName = some t.aliasName ∧
    ∀ table, data.find? t.physicalName = some table → ref.column ∉ table.columns

namespace Plan

variable {plan : Plan} {schemas : Schemas} {data : Datasets}

theorem projected_eq (plan : Plan) (data : Datasets) : plan.projected data =
    plan.joined data >>= fun t => runIf plan.filter (fun t p => Step.filter.run (t.filter p)) t >>=
      fun t => plan.grouped t >>= plan.project :=
  rfl

theorem execute_eq_error {e : ExecutionError} (failed : plan.projected data = .error e)
    (sorter : Sorter) : plan.execute sorter data = .error e :=
  bind_eq_error.2 (.inl failed)

theorem map_name_renaming (plan : Plan) :
    (plan.output.map OutputColumn.renaming).map Renaming.name = plan.outputNames := by
  rw [List.map_map]
  rfl

theorem project_eq_ok {t t' : Table} : plan.project t = .ok t' ↔
    t.project (plan.output.map OutputColumn.renaming) = .ok t' :=
  Step.run_eq_ok

theorem of_project_eq_ok {t t' : Table} (ok : plan.project t = .ok t') :
    t'.Valid ∧ t'.columns = plan.outputNames := by
  obtain ⟨_, _, distinct, rfl⟩ := Table.project_eq_ok.1 (project_eq_ok.1 ok)
  exact ⟨⟨distinct, by simp⟩, plan.map_name_renaming⟩

theorem of_projected_eq_ok {t : Table} (ok : plan.projected data = .ok t) :
    t.Valid ∧ t.columns = plan.outputNames := by
  rw [projected_eq] at ok
  obtain ⟨_, _, ok⟩ := bind_eq_ok.1 ok
  obtain ⟨_, _, ok⟩ := bind_eq_ok.1 ok
  obtain ⟨_, _, ok⟩ := bind_eq_ok.1 ok
  exact of_project_eq_ok ok

theorem exists_project_eq_ok {t : Table} (valid : t.Valid)
    (sources : ∀ o ∈ plan.output, o.source.columnName ∈ t.columns)
    (names : plan.outputNames.Nodup) : ∃ rows, plan.project t = .ok ⟨plan.outputNames, rows⟩ := by
  have distinct : ((plan.output.map OutputColumn.renaming).map Renaming.name).Nodup := by
    rwa [map_name_renaming]
  have made := project_eq_ok.2
    (Table.project_eq_ok.2 ⟨valid, List.forall_mem_map.2 sources, distinct, rfl⟩)
  rw [map_name_renaming] at made
  exact ⟨_, made⟩

/-- How a run ends that has these rows to show: in a table of them, or in a sort that gives up
because it compares them inconsistently. -/
inductive Ends (plan : Plan) (rows : List Row) : Except ExecutionError (Option Table) → Prop
  | table {shown : List Row} (perm : shown.Perm rows) :
    plan.Ends rows (.ok (some ⟨plan.outputNames, shown⟩))
  | gaveUp (inconsistent : ¬ Consistent (Row.namedOrder plan.outputNames plan.sort) (· ∈ rows)) :
    plan.Ends rows (.ok none)

theorem Ends.of_perm {rows rows' : List Row} {outcome : Except ExecutionError (Option Table)}
    (ends : plan.Ends rows outcome) (perm : rows.Perm rows') : plan.Ends rows' outcome := by
  cases ends with
  | table shown => exact .table (shown.trans perm)
  | gaveUp inconsistent =>
    exact .gaveUp fun consistent => inconsistent (consistent.mono fun _ mem => perm.mem_iff.1 mem)

theorem ends_execute {rows : List Row}
    (projected : plan.projected data = .ok ⟨plan.outputNames, rows⟩)
    (sort : ∀ k ∈ plan.sort, k.column ∈ plan.outputNames) (sorter : Sorter) :
    plan.Ends rows (plan.execute sorter data) := by
  unfold execute
  rw [projected, ok_bind]
  split
  · exact .table (.refl rows)
  · rw [Table.sort_eq_sorted sorter (of_projected_eq_ok projected).1 sort]
    cases sorted : Table.sorted ⟨plan.outputNames, rows⟩ sorter plan.sort with
    | none =>
      refine .gaveUp fun consistent => ?_
      obtain ⟨_, some, _⟩ :=
        Table.exists_sorted ⟨plan.outputNames, rows⟩ sorter plan.sort consistent
      cases sorted.symm.trans some
    | some t =>
      obtain ⟨shown, arranged, rfl⟩ := Table.sorted_eq_some.1 sorted
      exact .table (sorter.sort_perm arranged)

theorem sources_of_project_eq_ok {t t' : Table} (ok : plan.project t = .ok t') :
    ∀ o ∈ plan.output, o.source.columnName ∈ t.columns := fun o mem =>
  (Table.project_eq_ok.1 (project_eq_ok.1 ok)).2.1 o.renaming (List.mem_map_of_mem mem)

theorem grouped_of_none (plain : plan.grouping = none) (t : Table) : plan.grouped t = .ok t := by
  unfold grouped
  rw [plain]

theorem grouped_of_some {g : Grouping} (grouped : plan.grouping = some g) (t : Table) :
    plan.grouped t = g.run t >>= runIf plan.having fun t p => Step.having.run (t.filter p) := by
  unfold Plan.grouped
  rw [grouped]

/-- The columns of tables that a plan reads. -/
def reads (plan : Plan) : List ColumnRef :=
  plan.joins.flatMap (fun e => [e.leftKey, e.rightKey])
    ++ plan.filter.toList.flatMap Predicate.refs
    ++ plan.grouping.toList.flatMap Grouping.refs
    ++ plan.output.flatMap fun o => o.source.toOperand.refs

theorem mem_reads {ref : ColumnRef} : ref ∈ plan.reads ↔
    (∃ e ∈ plan.joins, ref = e.leftKey ∨ ref = e.rightKey) ∨
      (∃ p ∈ plan.filter, ref ∈ p.refs) ∨ (∃ g ∈ plan.grouping, ref ∈ g.refs) ∨
      ∃ o ∈ plan.output, ref ∈ o.source.toOperand.refs := by
  simp [reads]

namespace WellFormed

variable (wf : plan.WellFormed schemas)

include wf

theorem reads_declared : ∀ ref ∈ plan.reads, ref.Declared schemas plan.tables := by
  intro ref read
  obtain ⟨e, mem, rfl | rfl⟩ | ⟨p, filter, read⟩ | ⟨g, grouping, read⟩ | ⟨o, mem, read⟩ :=
    mem_reads.1 read
  · exact (wf.joins e mem).left_declared
  · exact (wf.joins e mem).right_declared
  · exact wf.filter p filter ref read
  · exact (wf.grouping g grouping).refs_declared ref read
  · cases grouping : plan.grouping with
    | none =>
      obtain ⟨column, source, declared⟩ := wf.plain_output grouping o mem
      rw [source] at read
      exact List.mem_singleton.1 read ▸ declared
    | some g =>
      exact (wf.grouping g grouping).refs_declared ref
        ((wf.grouped_output g grouping o mem).refs_subset read)

theorem of_grouped_eq_ok {t t' : Table} (grouped : plan.grouped t = .ok t')
    (sources : ∀ o ∈ plan.output, o.source.columnName ∈ t'.columns) :
    (∀ g ∈ plan.grouping, ∀ ref ∈ g.refs, ref.text ∈ t.columns) ∧
      ∀ o ∈ plan.output, ∀ ref ∈ o.source.toOperand.refs, ref.text ∈ t.columns := by
  cases grouping : plan.grouping with
  | none =>
    rw [grouped_of_none grouping, Except.ok.injEq] at grouped
    subst grouped
    refine ⟨by simp, fun o mem ref read => ?_⟩
    obtain ⟨column, source, _⟩ := wf.plain_output grouping o mem
    have present := sources o mem
    rw [source] at read present
    exact List.mem_singleton.1 read ▸ present
  | some g =>
    rw [grouped_of_some grouping] at grouped
    obtain ⟨made, ok, _⟩ := bind_eq_ok.1 grouped
    obtain ⟨keys, arguments, _⟩ := Table.of_group_eq_ok (Step.run_eq_ok.1 ok)
    have refs : ∀ ref ∈ g.refs, ref.text ∈ t.columns := by
      intro ref mem
      obtain key | argument := List.mem_append.1 mem
      · exact keys _ (List.mem_map_of_mem key)
      · obtain ⟨call, mem, argument⟩ := List.mem_flatMap.1 argument
        exact arguments call mem ref (Option.mem_toList.1 argument)
    refine ⟨fun g' same => ?_, fun o mem ref read => ?_⟩
    · cases same
      exact refs
    · exact refs ref ((wf.grouped_output g grouping o mem).refs_subset read)

theorem reads_of_projected_eq_ok {t : Table} (ok : plan.projected data = .ok t) :
    ∃ joined, plan.joined data = .ok joined ∧ ∀ ref ∈ plan.reads, ref.text ∈ joined.columns := by
  rw [projected_eq] at ok
  obtain ⟨joined, joined_ok, ok⟩ := bind_eq_ok.1 ok
  obtain ⟨_, filtered, ok⟩ := bind_eq_ok.1 ok
  obtain ⟨grouped, grouped_ok, projected⟩ := bind_eq_ok.1 ok
  obtain ⟨conditions, rfl⟩ := runIf_filter_eq_ok.1 filtered
  obtain ⟨groups, sources⟩ := wf.of_grouped_eq_ok grouped_ok (sources_of_project_eq_ok projected)
  refine ⟨joined, joined_ok, fun ref read => ?_⟩
  obtain ⟨e, mem, rfl | rfl⟩ | ⟨p, filter, read⟩ | ⟨g, grouping, read⟩ | ⟨o, mem, read⟩ :=
    mem_reads.1 read
  · exact ((of_joined_eq_ok joined_ok).2.1 e mem).1
  · exact ((of_joined_eq_ok joined_ok).2.1 e mem).2
  · refine (conditions p filter).2 _ ?_
    rw [Predicate.columnNames_of_plain (wf.filter_plain p filter)]
    exact List.mem_map_of_mem read
  · exact groups g grouping ref read
  · exact sources o mem ref read

theorem projected_fails (distinct : (plan.tables.map TableDecl.aliasName).Nodup)
    (dotFree : ∀ t ∈ plan.tables, '.' ∉ t.aliasName.toList)
    (lacks : (∃ t ∈ plan.tables, data.find? t.physicalName = none) ∨
      ∃ ref ∈ plan.reads, data.Lacks plan.tables ref) : ∃ e, plan.projected data = .error e := by
  cases run : plan.projected data with
  | error e => exact ⟨e, rfl⟩
  | ok t =>
    obtain ⟨joined, ok, present⟩ := wf.reads_of_projected_eq_ok run
    obtain ⟨tables, _, origins⟩ := of_joined_eq_ok ok
    exfalso
    obtain ⟨t, mem, missing⟩ | ⟨ref, read, t, mem, named, missing⟩ := lacks
    · obtain ⟨table, found⟩ := tables t mem
      rw [missing] at found
      cases found
    · obtain ⟨d, mem_d, c, mem_c, text⟩ := origins ref.text (present ref read)
      have written : ref = .qualified t.aliasName ref.column := by
        rw [ColumnRef.qualified, ← named]
      rw [written, ColumnRef.text_qualified_inj (dotFree d mem_d) (dotFree t mem)] at text
      obtain ⟨sameAlias, rfl⟩ := text
      cases List.inj_on_of_nodup_map distinct mem_d mem sameAlias
      obtain ⟨table, found⟩ := tables t mem
      rw [Datasets.tableOf_eq found] at mem_c
      exact missing table found mem_c

end WellFormed

namespace Covered

variable (covered : plan.Covered schemas data)

include covered

theorem present (ref : ColumnRef) (declared : ref.Declared schemas plan.tables) :
    ref.text ∈ (plan.joinedTable data).columns :=
  plan.columns_joinedTable data ▸ covered.text_mem_of_declared declared

theorem filter_reads : ∀ p ∈ plan.filter, ∀ name ∈ p.columnNames,
    name ∈ (plan.joinedTable data).columns := by
  intro p filter name read
  rw [Predicate.columnNames_of_plain (covered.wellFormed.filter_plain p filter)] at read
  obtain ⟨ref, mem, rfl⟩ := List.mem_map.1 read
  exact covered.present ref (covered.wellFormed.filter p filter ref mem)

theorem projected_eq_grouped (columns : (columnsOf (plan.sources data)).Nodup) :
    plan.projected data =
      plan.grouped ((plan.joinedTable data).kept plan.filter) >>= plan.project := by
  obtain ⟨joined, valid⟩ := covered.joined_eq columns
  have filtered : runIf plan.filter (fun t p => Step.filter.run (t.filter p))
      (plan.joinedTable data) = .ok ((plan.joinedTable data).kept plan.filter) :=
    runIf_filter_eq_ok.2 ⟨fun p filter => ⟨valid, covered.filter_reads p filter⟩, rfl⟩
  rw [projected_eq, joined]
  exact congrArg (· >>= fun t => plan.grouped t >>= plan.project) filtered

theorem exists_projected_eq_ok (columns : (columnsOf (plan.sources data)).Nodup)
    (plain : plan.grouping = none) :
    ∃ rows, plan.projected data = .ok ⟨plan.outputNames, rows⟩ := by
  rw [covered.projected_eq_grouped columns, grouped_of_none plain]
  refine exists_project_eq_ok (Table.valid_kept (covered.joined_eq columns).2 _) (fun o mem => ?_)
    covered.wellFormed.names
  obtain ⟨ref, source, declared⟩ := covered.wellFormed.plain_output plain o mem
  rw [source]
  exact covered.present ref declared

theorem projected_eq_duplicate (repeated : ¬ (columnsOf (plan.sources data)).Nodup) :
    ∃ name, plan.projected data = .error (.stepFailed .join (.table (.duplicateColumn name))) := by
  obtain ⟨name, failed⟩ := covered.joined_eq_duplicate repeated
  rw [projected_eq, failed]
  exact ⟨name, rfl⟩

end Covered

namespace Fits

variable (fits : plan.Fits schemas data)

include fits

theorem isPlain {ref : ColumnRef} (declared : ref.Declared schemas plan.tables) : ref.IsPlain := by
  obtain ⟨t, mem, named, _⟩ := declared
  exact ⟨t.aliasName, named, fits.dotFree t mem⟩

theorem grouped_outcome {t : Table} (valid : t.Valid) (keys : ∀ g ∈ plan.grouping, g.keys.Nodup)
    (noParenthesis : ∀ t ∈ plan.tables, '(' ∉ t.aliasName.toList)
    (present : ∀ ref : ColumnRef, ref.Declared schemas plan.tables → ref.text ∈ t.columns) :
    (∃ t', plan.grouped t = .ok t' ∧ t'.Valid ∧
      ∀ o ∈ plan.output, o.source.columnName ∈ t'.columns) ∨
    ∃ f cell, plan.grouped t = .error (.stepFailed .aggregate (.table (.typeMismatch f cell))) := by
  cases grouping : plan.grouping with
  | none =>
    refine .inl ⟨t, grouped_of_none grouping t, valid, fun o mem => ?_⟩
    obtain ⟨ref, source, declared⟩ := fits.wellFormed.plain_output grouping o mem
    rw [source]
    exact present ref declared
  | some g =>
    have wf := fits.wellFormed.grouping g grouping
    have distinct := (wf.nodup_columnNames_iff fun t mem =>
      ⟨fits.dotFree t mem, noParenthesis t mem⟩).2 (keys g grouping)
    rw [grouped_of_some grouping]
    obtain ⟨f, cell, failed⟩ | ⟨_, t', made⟩ | ⟨repeated, _⟩ :=
      Grouping.run_outcome valid fun ref mem => present ref (wf.refs_declared ref mem)
    · exact .inr ⟨f, cell, bind_eq_error.2 (.inl failed)⟩
    · obtain ⟨_, _, columns, valid'⟩ := Table.of_group_eq_ok (Step.run_eq_ok.1 made)
      have answered {operand : Operand} (answers : g.Answers operand) {name : String}
          (read : operand.columnName? = some name) : name ∈ t'.columns :=
        columns ▸ answers.columnName_mem read
      have held : runIf plan.having (fun t p => Step.having.run (t.filter p)) t' =
          .ok (t'.kept plan.having) := by
        refine runIf_filter_eq_ok.2 ⟨fun p having => ⟨valid', fun name read => ?_⟩, rfl⟩
        obtain ⟨g', same, answers⟩ := fits.wellFormed.having p having
        obtain ⟨operand, mem, read⟩ := List.mem_filterMap.1 read
        cases grouping.symm.trans same
        exact answered (answers operand mem) read
      refine .inl ⟨t'.kept plan.having, ?_, Table.valid_kept valid' _, fun o mem => ?_⟩
      · exact bind_eq_ok.2 ⟨t', made, held⟩
      · exact answered (fits.wellFormed.grouped_output g grouping o mem)
          o.source.toOperand_columnName?
    · exact absurd distinct repeated

theorem projected_outcome (keys : ∀ g ∈ plan.grouping, g.keys.Nodup)
    (noParenthesis : ∀ t ∈ plan.tables, '(' ∉ t.aliasName.toList) :
    (∃ rows, plan.projected data = .ok ⟨plan.outputNames, rows⟩) ∨
    ∃ f cell,
      plan.projected data = .error (.stepFailed .aggregate (.table (.typeMismatch f cell))) := by
  rw [fits.covered.projected_eq_grouped (nodup_columnsOf fits.plain)]
  obtain ⟨t, grouped, valid, sources⟩ | ⟨f, cell, failed⟩ := fits.grouped_outcome
    (Table.valid_kept fits.joined_eq.2 plan.filter) keys noParenthesis fits.covered.present
  · obtain ⟨rows, projected⟩ := exists_project_eq_ok valid sources fits.wellFormed.names
    exact .inl ⟨rows, bind_eq_ok.2 ⟨t, grouped, projected⟩⟩
  · exact .inr ⟨f, cell, bind_eq_error.2 (.inl failed)⟩

end Fits

end Plan

namespace Spec

/-- Compiled plans never go wrong in their structure. Over data with the columns of the schemas a
run has rows of the output columns to show, unless an aggregate has no value for some cell, and only
a sort of them can give up; over data without a table or column that the plan reads it fails. -/
theorem execute_outcome {spec : Spec} {schemas : Schemas} {default : JoinKind} {plan : Plan}
    {data : Datasets} (distinct : (spec.tables.map TableDecl.aliasName).Nodup)
    (plain : ∀ t ∈ spec.tables, '.' ∉ t.aliasName.toList ∧ '(' ∉ t.aliasName.toList)
    (ok : spec.compile schemas default = .ok plan) (valid : data.AllValid) :
    (data.Covers schemas spec.tables → (∀ g ∈ plan.grouping, g.keys.Nodup) →
      (∃ rows, plan.projected data = .ok ⟨plan.outputNames, rows⟩ ∧
        (∀ row ∈ rows, row.length = plan.outputNames.length) ∧
        ∀ sorter, plan.Ends rows (plan.execute sorter data)) ∨
      ∃ f cell, ∀ sorter, plan.execute sorter data =
        .error (.stepFailed .aggregate (.table (.typeMismatch f cell)))) ∧
    ((∃ t ∈ spec.tables, data.find? t.physicalName = none) ∨
      (∃ ref ∈ plan.reads, data.Lacks spec.tables ref) →
      ∃ e, ∀ sorter, plan.execute sorter data = .error e) := by
  have wf := wellFormed_of_compile ok distinct
  rw [← tables_of_compile ok] at distinct plain ⊢
  have dotFree : ∀ t ∈ plan.tables, '.' ∉ t.aliasName.toList := fun t mem => (plain t mem).1
  refine ⟨fun covers keys => ?_, fun lacks => ?_⟩
  · obtain ⟨rows, projected⟩ | ⟨f, cell, failed⟩ := Plan.Fits.projected_outcome
      ⟨wf, distinct, dotFree, valid, covers⟩ keys fun t mem => (plain t mem).2
    · exact .inl ⟨rows, projected, (Plan.of_projected_eq_ok projected).1.width,
        Plan.ends_execute projected wf.sort⟩
    · exact .inr ⟨f, cell, Plan.execute_eq_error failed⟩
  · obtain ⟨e, failed⟩ := wf.projected_fails distinct dotFree lacks
    exact ⟨e, Plan.execute_eq_error failed⟩

/-- The number of paid orders of each customer. -/
def totals : Spec where
  name := "totals"
  tables := [⟨"o", "orders", .source, none⟩, ⟨"c", "customers", .source, none⟩]
  joins := [⟨"o", "c", "customer", "id", none⟩]
  select := [⟨"c.name", none⟩, ⟨"count(*)", some "orders"⟩]
  filter := ["o.state = 'paid'"]
  group := ["c.name"]
  having := []
  sort := []

def totalsSchemas : Schemas :=
  [("customers", ["id", "name"]), ("orders", ["customer", "state"])]

def totalsData : Datasets := [
  ("customers", ⟨["id", "name"], [[.int 1, .text "Ann"], [.int 2, .text "Bob"]]⟩),
  ("orders", ⟨["customer", "state"], [[.int 1, .text "paid"], [.int 2, .text "open"]]⟩)]

theorem execute_outcome_totals : ∃ plan, totals.compile totalsSchemas .inner = .ok plan ∧
    ((∃ rows, plan.projected totalsData = .ok ⟨plan.outputNames, rows⟩ ∧
        (∀ row ∈ rows, row.length = plan.outputNames.length) ∧
        ∀ sorter, plan.Ends rows (plan.execute sorter totalsData)) ∨
      ∃ f cell, ∀ sorter, plan.execute sorter totalsData =
        .error (.stepFailed .aggregate (.table (.typeMismatch f cell)))) ∧
    ∃ e, ∀ sorter, plan.execute sorter [] = .error e := by
  have compiles : (totals.compile totalsSchemas .inner).toOption.any (fun plan =>
      plan.grouping.all fun g => decide g.keys.Nodup) = true := by decide +kernel
  obtain ⟨plan, made, keys⟩ := exists_of_any_toOption compiles
  have distinct : (totals.tables.map TableDecl.aliasName).Nodup := by decide
  have plain : ∀ t ∈ totals.tables, '.' ∉ t.aliasName.toList ∧ '(' ∉ t.aliasName.toList := by
    decide
  have valid : Datasets.AllValid totalsData := Datasets.allValid_of_forall
    (List.forall_mem_cons.2 ⟨rfl, List.forall_mem_cons.2 ⟨rfl, by simp⟩⟩)
  have covers : Datasets.Covers totalsData totalsSchemas totals.tables := by
    refine List.forall_mem_cons.2 ⟨⟨_, rfl, fun columns listed => ?_⟩,
      List.forall_mem_cons.2 ⟨⟨_, rfl, fun columns listed => ?_⟩, by simp⟩⟩ <;>
      cases listed <;> decide
  have keys : ∀ g ∈ plan.grouping, g.keys.Nodup := by
    intro g grouped
    rw [Option.mem_def.1 grouped] at keys
    exact of_decide_eq_true keys
  have none_valid : Datasets.AllValid [] := Datasets.allValid_of_forall (by simp)
  exact ⟨plan, made, (execute_outcome distinct plain made valid).1 covers keys,
    (execute_outcome distinct plain made none_valid).2 (.inl ⟨_, List.mem_cons_self, rfl⟩)⟩

end Spec

end TablePlan
