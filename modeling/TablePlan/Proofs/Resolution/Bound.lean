import TablePlan.Proofs.Resolution.Declared
import TablePlan.Proofs.Resolution.Operands
import TablePlan.Proofs.Resolution.Stages

/-!
Resolved specs read declared columns only. Their tables are those of the spec, and their join edges
are the join conditions one by one.
-/

namespace TablePlan

open Success

namespace Predicate

def refs (p : Predicate) : List ColumnRef :=
  p.operands.flatMap Operand.refs

theorem mem_refs {p : Predicate} {ref : ColumnRef} :
    ref ∈ p.refs ↔ ∃ operand ∈ p.operands, ref ∈ operand.refs :=
  List.mem_flatMap

theorem refs_declared_of_resolve? {schemas : Schemas} {tables : List TableDecl}
    {f : Operand → Except ResolutionError Operand} {p p' : Option Predicate}
    (declares : ∀ operand operand', f operand = .ok operand' →
      ∀ ref ∈ operand'.refs, ref.Declared schemas tables)
    (ok : resolve? f p = .ok p') : ∀ q ∈ p', ∀ ref ∈ q.refs, ref.Declared schemas tables := by
  cases p with
  | none =>
    cases pure_eq_ok.1 ok
    simp
  | some p =>
    obtain ⟨q, rfl, mapped⟩ := resolve?_some_eq_ok ok
    intro q' mem ref read
    cases mem
    obtain ⟨operand', mem, read⟩ := mem_refs.1 read
    obtain ⟨operand, _, made⟩ := exists_of_mem_mapM mapped mem
    exact declares operand operand' made ref read

end Predicate

namespace ResolvedSpec

/-- A resolved spec reads declared columns only. -/
structure Bound (schemas : Schemas) (spec : ResolvedSpec) : Prop where
  joins : ∀ e ∈ spec.joins, e.Bound schemas spec.tables
  select : ∀ entry ∈ spec.select, ∀ source, entry.source = .resolved source →
    ∀ ref ∈ source.toOperand.refs, ref.Declared schemas spec.tables
  filter : ∀ p ∈ spec.filter, ∀ ref ∈ p.refs, ref.Declared schemas spec.tables
  group : ∀ ref ∈ spec.group, ref.Declared schemas spec.tables
  having : ∀ p ∈ spec.having, ∀ ref ∈ p.refs, ref.Declared schemas spec.tables

/-- The calls of a spec before repeated ones are dropped. -/
def calls (spec : ResolvedSpec) : List AggregateCall :=
  spec.select.filterMap ResolvedSelect.aggregate?
    ++ (spec.having.map Predicate.aggregates).getD []

section Firsts

variable {α : Type} [DecidableEq α] {items seen : List α}

theorem mem_foldl_firsts {a : α} :
    a ∈ items.foldl (fun seen item => if item ∈ seen then seen else seen ++ [item]) seen ↔
      a ∈ seen ∨ a ∈ items := by
  induction items generalizing seen with
  | nil => simp
  | cons item items ih =>
    rw [List.foldl_cons, ih, List.mem_cons]
    split
    · rename_i old
      constructor
      · exact Or.imp_right .inr
      · rintro (mem | rfl | mem)
        · exact .inl mem
        · exact .inl old
        · exact .inr mem
    · rw [List.mem_append, List.mem_singleton, or_assoc]

theorem nodup_foldl_firsts (distinct : seen.Nodup) :
    (items.foldl (fun seen item => if item ∈ seen then seen else seen ++ [item]) seen).Nodup := by
  induction items generalizing seen with
  | nil => exact distinct
  | cons item items ih =>
    rw [List.foldl_cons]
    refine ih ?_
    split
    · exact distinct
    · rename_i fresh
      rw [(List.perm_append_singleton item seen).nodup_iff]
      exact List.nodup_cons.2 ⟨fresh, distinct⟩

end Firsts

theorem mem_aggregates {spec : ResolvedSpec} {call : AggregateCall} :
    call ∈ spec.aggregates ↔ call ∈ spec.calls := by
  rw [aggregates, mem_foldl_firsts]
  simp [calls]

theorem nodup_aggregates (spec : ResolvedSpec) : spec.aggregates.Nodup :=
  nodup_foldl_firsts List.nodup_nil

theorem mem_aggregates_of_select {spec : ResolvedSpec} {entry : ResolvedSelect}
    (mem : entry ∈ spec.select) {call : AggregateCall}
    (source : entry.source = .resolved (.aggregate call)) : call ∈ spec.aggregates := by
  rw [mem_aggregates, calls, List.mem_append, List.mem_filterMap]
  exact .inl ⟨entry, mem, by simp [ResolvedSelect.aggregate?, source]⟩

theorem mem_aggregates_of_having {spec : ResolvedSpec} {p : Predicate}
    (having : spec.having = some p) {call : AggregateCall} (mem : .aggregate call ∈ p.operands) :
    call ∈ spec.aggregates := by
  rw [mem_aggregates, calls, List.mem_append, having]
  exact .inr (List.mem_filterMap.2 ⟨_, mem, rfl⟩)

theorem Bound.aggregates {schemas : Schemas} {spec : ResolvedSpec} (bound : spec.Bound schemas) :
    ∀ call ∈ spec.aggregates, ∀ ref ∈ call.argument, ref.Declared schemas spec.tables := by
  intro call mem ref argument
  have read : ref ∈ (Operand.aggregate call).refs := by simpa [Operand.refs] using argument
  rw [mem_aggregates, calls, List.mem_append] at mem
  obtain mem | mem := mem
  · obtain ⟨entry, mem, found⟩ := List.mem_filterMap.1 mem
    unfold ResolvedSelect.aggregate? at found
    split at found
    · rename_i source
      cases found
      exact bound.select entry mem _ source ref read
    · cases found
  · cases having : spec.having with
    | none => simp [having] at mem
    | some p =>
      rw [having, Option.map_some, Option.getD_some] at mem
      obtain ⟨operand, mem, found⟩ := List.mem_filterMap.1 mem
      unfold Operand.aggregate? at found
      split at found
      · cases found
        exact bound.having p having ref (Predicate.mem_refs.2 ⟨_, mem, read⟩)
      · cases found

end ResolvedSpec

namespace Spec

theorem bound_of_resolve {spec : Spec} {schemas : Schemas} {default : JoinKind} {clauses : Clauses}
    {resolved : ResolvedSpec} (ok : spec.resolve schemas default clauses = .ok resolved) :
    resolved.tables = spec.tables ∧ resolved.Bound schemas := by
  obtain ⟨stages, held⟩ := resolve_eq_ok.1 ok
  have made := stages.scope
  rw [← stages.tables] at made
  have select_declared : ∀ entry ∈ resolved.select, ∀ source, entry.source = .resolved source →
      ∀ ref ∈ source.toOperand.refs, ref.Declared schemas resolved.tables := by
    intro entry mem source
    obtain ⟨clause, _, entry_made⟩ := exists_of_mem_mapM stages.select mem
    exact Scope.selectClause_declared made entry_made
  refine ⟨stages.tables, ?_, select_declared, ?_, ?_, ?_⟩
  · intro e mem
    obtain ⟨c, _, edge_made⟩ := exists_of_mem_mapM stages.joins mem
    exact Scope.join_bound made edge_made
  · exact Predicate.refs_declared_of_resolve? (fun _ _ => Scope.operand_declared made) stages.filter
  · intro ref mem
    obtain ⟨text, _, ref_made⟩ := exists_of_mem_mapM stages.group mem
    exact Scope.column_declared made ref_made
  · exact Predicate.refs_declared_of_resolve?
      (fun _ _ => Scope.havingOperand_declared made select_declared) held

end Spec

end TablePlan
