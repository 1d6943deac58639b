import TablePlan.Proofs.Execution.Outcome
import TablePlan.Proofs.Resolution.OutputName

/-!
Default output names written out. A spec that compiles without such a name compiles with it, to the
same plan. The converse fails in one way only: a condition on groups reads the bare name, and
several tables have a column of this name.
-/

namespace TablePlan

open Success

namespace ResolvedSpec

variable {spec : ResolvedSpec} {i : Nat} {name key : String} {source : ColumnSource}
  {output : List OutputColumn}

theorem aggregates_withOutputName (spec : ResolvedSpec) (i : Nat) (name : String) :
    (spec.withOutputName i name).aggregates = spec.aggregates := by
  have same : (spec.withOutputName i name).select.map ResolvedSelect.aggregate? =
      spec.select.map ResolvedSelect.aggregate? := map_modify_of_same fun _ _ => rfl
  have calls := congrArg (List.filterMap id) same
  rw [List.filterMap_map, List.filterMap_map] at calls
  rw [aggregates, aggregates]
  exact congrArg (fun calls => List.foldl _ [] (calls ++ _)) calls

theorem isAggregated_withOutputName (spec : ResolvedSpec) (i : Nat) (name : String) :
    (spec.withOutputName i name).isAggregated = spec.isAggregated := by
  rw [isAggregated, isAggregated, aggregates_withOutputName]
  rfl

theorem assemble_withOutputName (spec : ResolvedSpec) (i : Nat) (name : String) (order : JoinOrder)
    (output : List OutputColumn) (sort : List SortKey) :
    (spec.withOutputName i name).assemble order output sort = spec.assemble order output sort := by
  have having : (spec.withOutputName i name).checkHaving = spec.checkHaving := by
    rw [checkHaving, checkHaving, isAggregated_withOutputName]
    rfl
  have grouping : (spec.withOutputName i name).grouping? = spec.grouping? := by
    rw [grouping?, grouping?, isAggregated_withOutputName, aggregates_withOutputName]
    rfl
  rw [assemble, assemble, having, grouping]
  rfl

theorem selectedSource_withOutputName (spec : ResolvedSpec) (i : Nat) (name : String)
    (entry : ResolvedSelect) :
    (spec.withOutputName i name).selectedSource entry = spec.selectedSource entry := by
  rw [selectedSource, selectedSource, isAggregated_withOutputName]
  rfl

theorem outputColumns_withOutputName
    (at_i : spec.select[i]? = some ⟨key, .resolved source, none⟩) :
    (spec.withOutputName i source.defaultName).outputColumns = .ok output ↔
      spec.outputColumns = .ok output := by
  have asks : (spec.withOutputName i source.defaultName).Names = spec.Names := by
    unfold Names
    simp only [selectedSource_withOutputName]
  have same : (spec.withOutputName i source.defaultName).select.map spec.Names =
      spec.select.map spec.Names := by
    refine map_modify_of_same fun entry unnamed => funext fun o => propext ?_
    cases at_i.symm.trans unnamed
    refine and_congr_right fun selected => ?_
    obtain ⟨resolved, _⟩ := selectedSource_eq_ok.1 selected
    cases resolved
    rfl
  rw [outputColumns_eq_ok, outputColumns_eq_ok, asks,
    ← List.forall₂_map_left_iff (f := spec.Names) (R := fun asked o => asked o), same,
    List.forall₂_map_left_iff]

theorem planned_withOutputName {plan : Plan}
    (at_i : spec.select[i]? = some ⟨key, .resolved source, none⟩) :
    (spec.withOutputName i source.defaultName).planned = .ok plan ↔ spec.planned = .ok plan := by
  simp only [planned_eq_ok, outputColumns_withOutputName at_i, assemble_withOutputName]
  rfl

theorem unwritten_of_outputColumns (ok : spec.outputColumns = .ok output)
    (at_i : spec.select[i]? = some ⟨key, .resolved source, none⟩) :
    output[i]? = some ⟨source, source.defaultName⟩ ∧
      Unwritten spec.select i source.defaultName source := by
  obtain ⟨distinct, outputs⟩ := outputColumns_eq_ok.1 ok
  obtain ⟨o, output_i, selected, name⟩ := exists_getElem?_of_forall₂ outputs at_i
  obtain ⟨resolved, _⟩ := selectedSource_eq_ok.1 selected
  obtain ⟨found, named⟩ := o
  cases resolved
  have name : named = found.defaultName := name
  subst name
  refine ⟨output_i, ⟨key, at_i⟩, fun entry mem written => ?_⟩
  obtain ⟨j, at_j⟩ := List.mem_iff_getElem?.1 mem
  obtain ⟨o', output_j, _, name'⟩ := exists_getElem?_of_forall₂ outputs at_j
  rw [written] at name'
  have inside : i < (output.map OutputColumn.name).length := by
    rw [List.length_map]
    exact (List.getElem?_eq_some_iff.1 output_i).1
  have same : i = j := by
    refine (List.getElem?_inj inside distinct).1 ?_
    rw [List.getElem?_map, List.getElem?_map, output_i, output_j]
    exact congrArg some name'.symm
  cases same
  cases at_i.symm.trans at_j
  cases written

end ResolvedSpec

def Operand.isBare (name : String) : Operand → Bool
  | .column ref => ref == .bare name
  | _ => false

theorem Operand.isBare_iff {name : String} {operand : Operand} :
    operand.isBare name = true ↔ operand = .column (.bare name) := by
  cases operand <;> simp [isBare]

/-- Whether a bare name of a condition as it is written stands for a source once it is resolved. -/
def Predicate.Denotes (name : String) (source : ColumnSource) (written resolved : Predicate) :
    Prop :=
  List.Forall₂ (fun o o' => o = .column (.bare name) → o' = source.toOperand) written.operands
    resolved.operands

namespace Spec

variable {spec : Spec} {schemas : Schemas} {default : JoinKind} {clauses : Clauses}
  {resolved : ResolvedSpec} {i : Nat} {key : String} {ref : ColumnRef}

def HavingReads (spec : Spec) (name : String) : Prop :=
  ∃ p, Predicate.readAll? spec.having = .ok (some p) ∧ .column (.bare name) ∈ p.operands

instance (spec : Spec) (name : String) : Decidable (spec.HavingReads name) :=
  decidable_of_iff ((Predicate.readAll? spec.having).toOption.any fun p =>
      p.any fun p => p.operands.any (Operand.isBare name)) <| by
    rw [HavingReads]
    cases Predicate.readAll? spec.having with
    | error e => simp [Except.toOption]
    | ok p => cases p <;> simp [Except.toOption, Operand.isBare_iff]

theorem Stages.column_entry (stages : spec.Stages schemas default clauses resolved)
    (read : Clauses.ofSpec spec = .ok clauses) (unnamed : spec.select[i]? = some ⟨key, none⟩)
    (column : ColumnSource.read key = .ok (.column ref))
    (plain : ∀ entry, resolved.select[i]? = some entry →
      ∃ source, entry.source = .resolved source) :
    ∃ a ∈ resolved.scope.owners ref.column, resolved.select[i]? =
      some ⟨key, .resolved (.column (.qualified a ref.column)), none⟩ := by
  obtain ⟨written, _⟩ := Clauses.ofSpec_eq_ok.1 read
  obtain ⟨clause, at_i, clause_read⟩ := exists_getElem?_of_forall₂ (mapM_eq_ok.1 written) unnamed
  obtain ⟨source, source_read, same⟩ := bind_eq_ok.1 clause_read
  cases column.symm.trans source_read
  cases pure_eq_ok.1 same
  have numbered : clauses.select.zipIdx[i]? = some (⟨key, .column ref, none⟩, i) := by
    rw [List.getElem?_zipIdx, at_i, Option.map_some, Nat.zero_add]
  obtain ⟨entry, at_i, made⟩ := exists_getElem?_of_forall₂ (mapM_eq_ok.1 stages.select) numbered
  obtain ⟨source, resolves⟩ := plain entry at_i
  obtain ⟨a, owner, rfl⟩ := Scope.owner_of_selectClause stages.scope made rfl resolves
  obtain ⟨_, _, same⟩ := bind_eq_ok.1 made
  cases pure_eq_ok.1 same
  cases resolves
  exact ⟨a, owner, at_i⟩

theorem compile_withOutputName_of_compile (unnamed : spec.select[i]? = some ⟨key, none⟩)
    (column : ColumnSource.read key = .ok (.column ref)) {plan : Plan}
    (ok : spec.compile schemas default = .ok plan) :
    (spec.withOutputName i ref.column).compile schemas default = .ok plan := by
  obtain ⟨clauses, resolved, read, stages, having, planned⟩ := compile_eq_ok_iff_stages.1 ok
  obtain ⟨_, output, _, _, selected, _⟩ := ResolvedSpec.planned_eq_ok.1 planned
  obtain ⟨a, owner, at_i⟩ := stages.column_entry read unnamed column fun entry at_i =>
    ResolvedSpec.resolved_of_outputColumns selected entry (List.mem_of_getElem? at_i)
  obtain ⟨_, unwritten⟩ := ResolvedSpec.unwritten_of_outputColumns selected at_i
  have read' : Clauses.ofSpec (spec.withOutputName i ref.column) =
      .ok (clauses.withOutputName i ref.column) := by
    rw [Clauses.ofSpec_withOutputName, read]
    rfl
  exact compile_eq_ok_iff_stages.2 ⟨_, _, read', stages.withOutputName i ref.column,
    unwritten.resolve?_written owner having,
    (ResolvedSpec.planned_withOutputName at_i).2 planned⟩

/-- A spec that compiles once the default name of an entry is written out, and what it resolves to
before, but for its conditions on groups. -/
structure CompilesWritten (spec : Spec) (schemas : Schemas) (default : JoinKind) (i : Nat)
    (name a : String) (clauses : Clauses) (resolved : ResolvedSpec) (plan : Plan) : Prop where
  read : Clauses.ofSpec spec = .ok clauses
  stages : spec.Stages schemas default clauses resolved
  unwritten : Unwritten resolved.select i name (.column (.qualified a name))
  owner : a ∈ resolved.scope.owners name
  having : Predicate.resolve? (resolved.scope.havingOperand
    (resolved.select.modify i (ResolvedSelect.withOutputName name))) clauses.having =
      .ok resolved.having
  planned : resolved.planned = .ok plan
  output : plan.output[i]? = some ⟨.column (.qualified a name), name⟩

theorem exists_compilesWritten (unnamed : spec.select[i]? = some ⟨key, none⟩)
    (column : ColumnSource.read key = .ok (.column ref)) {plan : Plan}
    (ok : (spec.withOutputName i ref.column).compile schemas default = .ok plan) :
    ∃ a clauses resolved,
      spec.CompilesWritten schemas default i ref.column a clauses resolved plan := by
  obtain ⟨clauses', resolved', read', stages', having, planned'⟩ := compile_eq_ok_iff_stages.1 ok
  rw [Clauses.ofSpec_withOutputName, map_eq_ok] at read'
  obtain ⟨clauses, read, rfl⟩ := read'
  obtain ⟨resolved, rfl, stages⟩ := exists_stages stages'
  obtain ⟨_, _, _, _, selected', _⟩ := ResolvedSpec.planned_eq_ok.1 planned'
  -- Only the spec with the name has output columns so far, but the name is no part of the source.
  have plain (entry : ResolvedSelect) (at_i : resolved.select[i]? = some entry) :
      ∃ source, entry.source = .resolved source := by
    have written : (resolved.withOutputName i ref.column).select[i]? =
        some (entry.withOutputName ref.column) := by
      rw [ResolvedSpec.withOutputName, List.getElem?_modify, at_i]
      simp
    have resolves := ResolvedSpec.resolved_of_outputColumns selected' _
      (List.mem_of_getElem? written)
    exact resolves
  obtain ⟨a, owner, at_i⟩ := stages.column_entry read unnamed column plain
  have planned := (ResolvedSpec.planned_withOutputName at_i).1 planned'
  obtain ⟨_, output, _, _, selected, _, made⟩ := ResolvedSpec.planned_eq_ok.1 planned
  obtain ⟨_, _, rfl⟩ := ResolvedSpec.assemble_eq_ok.1 made
  obtain ⟨output_i, unwritten⟩ := ResolvedSpec.unwritten_of_outputColumns selected at_i
  exact ⟨a, clauses, resolved, read, stages, unwritten, owner, having, planned, output_i⟩

namespace CompilesWritten

variable {name a : String} {plan : Plan}
  (compiles : spec.CompilesWritten schemas default i name a clauses resolved plan)

include compiles

theorem denotes {p : Predicate} (written : Predicate.readAll? spec.having = .ok (some p)) :
    ∃ p' ∈ plan.having, p.Denotes name (.column (.qualified a name)) p' := by
  obtain ⟨_, _, read⟩ := Clauses.ofSpec_eq_ok.1 compiles.read
  have having := compiles.having
  rw [Except.ok.inj (read.symm.trans written)] at having
  obtain ⟨p', resolved, mapped⟩ := Predicate.resolve?_some_eq_ok having
  obtain ⟨_, _, _, _, _, _, made⟩ := ResolvedSpec.planned_eq_ok.1 compiles.planned
  obtain ⟨_, _, rfl⟩ := ResolvedSpec.assemble_eq_ok.1 made
  refine ⟨p', resolved, (mapM_eq_ok.1 mapped).imp ?_⟩
  rintro o o' found rfl
  rw [compiles.unwritten.havingOperand_written] at found
  exact (Except.ok.inj found).symm

theorem havingReads_iff : spec.HavingReads name ↔
    ∃ p ∈ clauses.having, .column (.bare name) ∈ p.operands := by
  obtain ⟨_, _, read⟩ := Clauses.ofSpec_eq_ok.1 compiles.read
  simp [HavingReads, read]

theorem scope_eq : resolved.scope = Scope.declared schemas spec.tables :=
  (Scope.ofTables_eq_ok.1 compiles.stages.scope).2

theorem compile_eq (apart : ¬ (spec.HavingReads name ∧
      1 < ((Scope.declared schemas spec.tables).owners name).length)) :
    spec.compile schemas default = .ok plan := by
  rw [compiles.havingReads_iff, ← compiles.scope_eq] at apart
  have having := (compiles.unwritten.resolve?_eq compiles.owner apart).symm.trans compiles.having
  exact compile_eq_ok_iff_stages.2
    ⟨clauses, resolved, compiles.read, compiles.stages, having, compiles.planned⟩

theorem compile_eq_error (reads : spec.HavingReads name)
    (many : 1 < ((Scope.declared schemas spec.tables).owners name).length) :
    spec.compile schemas default = .error (.resolution (.ambiguousColumn name
      ((Scope.declared schemas spec.tables).owners name) .having)) := by
  rw [compiles.havingReads_iff] at reads
  rw [← compiles.scope_eq] at many ⊢
  have having := compiles.unwritten.resolve?_eq_error compiles.owner reads many compiles.having
  refine bind_eq_error.2 (.inl (bind_eq_error.2 (.inr
    ⟨clauses, mapError_eq_ok.2 compiles.read, ?_⟩)))
  rw [compiles.stages.resolve_eq, having]
  rfl

end CompilesWritten

/-- The default name of a selected column may be written out, and what compiles without the name
compiles to the same plan with it. Written out, the name stands for the column in the conditions on
groups. Left out, it does so only while one table has a column of this name: with several of them a
condition that reads the bare name is refused, and everything else compiles to the same plan. -/
theorem compile_withOutputName (unnamed : spec.select[i]? = some ⟨key, none⟩)
    (column : ColumnSource.read key = .ok (.column ref)) (schemas : Schemas)
    (default : JoinKind) :
    (∀ plan, spec.compile schemas default = .ok plan →
      (spec.withOutputName i ref.column).compile schemas default = .ok plan) ∧
    ∀ plan, (spec.withOutputName i ref.column).compile schemas default = .ok plan →
      let owners := (Scope.declared schemas spec.tables).owners ref.column
      (∃ source, plan.output[i]? = some ⟨source, ref.column⟩ ∧
        ∀ p, Predicate.readAll? spec.having = .ok (some p) →
          ∃ p' ∈ plan.having, p.Denotes ref.column source p') ∧
      (¬ (spec.HavingReads ref.column ∧ 1 < owners.length) →
        spec.compile schemas default = .ok plan) ∧
      (spec.HavingReads ref.column → 1 < owners.length → spec.compile schemas default =
        .error (.resolution (.ambiguousColumn ref.column owners .having))) := by
  refine ⟨fun plan => compile_withOutputName_of_compile unnamed column, fun plan ok => ?_⟩
  obtain ⟨a, clauses, resolved, compiles⟩ := exists_compilesWritten unnamed column ok
  exact ⟨⟨_, compiles.output, fun p => compiles.denotes⟩, compiles.compile_eq,
    compiles.compile_eq_error⟩

def others : Spec :=
  { totals with having := ["name != 'Bob'"] }

def namedSchemas : Schemas :=
  [("customers", ["id", "name"]), ("orders", ["customer", "state", "name"])]

theorem compile_withOutputName_others :
    (∃ plan, (others.withOutputName 0 "name").compile namedSchemas .inner = .ok plan ∧
      plan.output[0]? = some ⟨.column (.qualified "c" "name"), "name"⟩) ∧
    others.compile namedSchemas .inner =
      .error (.resolution (.ambiguousColumn "name" ["o", "c"] .having)) := by
  have compiles : ((others.withOutputName 0 "name").compile namedSchemas .inner).toOption.any
      (fun plan => plan.output[0]? == some ⟨.column (.qualified "c" "name"), "name"⟩) = true := by
    decide +kernel
  obtain ⟨plan, made, first⟩ := exists_of_any_toOption compiles
  have reads : others.HavingReads "name" := by decide +kernel
  have unnamed : others.select[0]? = some ⟨"c.name", none⟩ := rfl
  have column : ColumnSource.read "c.name" = .ok (.column (.qualified "c" "name")) := by
    decide +kernel
  obtain ⟨_, _, refused⟩ :=
    (compile_withOutputName unnamed column namedSchemas .inner).2 plan made
  exact ⟨⟨plan, made, eq_of_beq first⟩, refused reads (by decide)⟩

end Spec

end TablePlan
