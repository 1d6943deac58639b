import TablePlan.Proofs.Execution.Extension
import TablePlan.Proofs.Execution.Selection
import TablePlan.Proofs.JoinOrder.Turning
import TablePlan.Proofs.Plan.Reordering
import TablePlan.Proofs.Table.Comparison
import TablePlan.Proofs.Table.Mirror

/-!
Join conditions written from their other sides. The first join may be made from the other side,
which rearranges the table; all later joins, the filter and the projection keep a rearrangement. The
conditions left over are compared the other way round, with the same truth.
-/

namespace TablePlan

open Success

namespace Table

theorem Rearranges.kept {t' t : Table} (rearranged : t'.Rearranges t) {wanted : Option Predicate}
    (reads : ∀ p ∈ wanted, ∀ name ∈ p.columnNames, name ∈ t.columns) :
    (t'.kept wanted).Rearranges (t.kept wanted) := by
  obtain ⟨rows, perm, wider⟩ := rearranged
  exact ⟨_, perm.filter _, wider.kept reads⟩

theorem Rearranges.project {t' t projected : Table} {columns : List Renaming}
    (rearranged : t'.Rearranges t) (valid' : t'.Valid) (ok : t.project columns = .ok projected) :
    ∃ rows, t'.project columns = .ok ⟨projected.columns, rows⟩ ∧ rows.Perm projected.rows := by
  obtain ⟨rows, perm, wider⟩ := rearranged
  obtain ⟨valid, sources, names, rfl⟩ := project_eq_ok.1 ok
  have same := (wider.project_eq valid (valid'.perm perm) sources).trans ok
  obtain ⟨_, sources', _, same⟩ := project_eq_ok.1 same
  refine ⟨_, project_eq_ok.2 ⟨valid', sources', names, rfl⟩, ?_⟩
  rw [same]
  exact perm.symm.map _

end Table

theorem JoinEdge.Turned.truthBy_condition {e' e : JoinEdge} (turned : e'.Turned e)
    (value : Operand → Cell) : e'.condition.truthBy value = e.condition.truthBy value := by
  obtain rfl | rfl := turned
  · rfl
  · have holds (order : Ordering) : Comparison.eq.holds order.swap = Comparison.eq.holds order := by
      cases order <;> rfl
    change ((value (.column e.rightKey)).compare (value (.column e.leftKey))).map _ =
      ((value (.column e.leftKey)).compare (value (.column e.rightKey))).map _
    rw [Cell.compare_swap (value (.column e.leftKey)), Option.map_map]
    exact congrArg (Option.map · _) (funext holds)

theorem Table.kept_turned {left' left : List JoinEdge}
    (turned : List.Forall₂ JoinEdge.Turned left' left) (t : Table) (filter : Option Predicate) :
    t.kept (Predicate.conjunction? (left'.map JoinEdge.condition ++ filter.toList)) =
      t.kept (Predicate.conjunction? (left.map JoinEdge.condition ++ filter.toList)) := by
  have conditions (value : Operand → Cell) :
      (∀ e' ∈ left', e'.condition.truthBy value = some true) ↔
        ∀ e ∈ left, e.condition.truthBy value = some true := by
    constructor
    · intro all e mem
      obtain ⟨e', mem', turned⟩ := exists_of_mem_forall₂ turned mem
      exact (turned.truthBy_condition value).symm.trans (all e' mem')
    · intro all e' mem'
      obtain ⟨e, mem, turned⟩ := exists_of_mem_forall₂ turned.flip mem'
      exact (JoinEdge.Turned.truthBy_condition turned value).trans (all e mem)
  have truth_eq (p : Predicate) (row : Row) : p.truth t.columns row =
      p.truthBy fun operand => operand.value t.columns row :=
    Predicate.truth_eq_truthBy fun _ _ => rfl
  refine congrArg (Table.mk _) (List.filter_congr fun row _ => ?_)
  rw [Bool.eq_iff_iff, Option.all_eq_true, Option.all_eq_true]
  simp only [beq_iff_eq, truth_eq]
  refine Predicate.forall_conjunction?.trans (Iff.trans ?_ Predicate.forall_conjunction?.symm)
  rw [List.forall_mem_append, List.forall_mem_append, List.forall_mem_map, List.forall_mem_map,
    conditions]

namespace Inputs

theorem rearranges_foldl_mirrored {table : String → Table} {inputs inputs' : Inputs} {e : JoinEdge}
    {edges : List JoinEdge} (ready : Ready table inputs (table e.leftAlias) (e :: edges))
    (ready' : Ready table inputs' (table e.rightAlias) (e.reversed :: edges))
    (columns : ((table e.leftAlias).columns ++
      (e :: edges).flatMap fun e => (table e.rightAlias).columns).Nodup)
    (columns' : ((table e.rightAlias).columns ++
      (e.reversed :: edges).flatMap fun e => (table e.rightAlias).columns).Nodup) :
    ((e.reversed :: edges).foldl (joinStep table) (table e.rightAlias)).Rearranges
      ((e :: edges).foldl (joinStep table) (table e.leftAlias)) := by
  rw [List.flatMap_cons, ← List.append_assoc] at columns columns'
  have distinct := (List.nodup_append.1 columns).1
  have distinct' := (List.nodup_append.1 columns').1
  have mirrored : (joinStep table (table e.rightAlias) e.reversed).Rearranges
      (joinStep table (table e.leftAlias) e) :=
    Table.rearranges_mirror ready.valid (ready.valid_right e List.mem_cons_self) distinct e.kind
  refine (ready.tail distinct).foldl_related (ready'.tail distinct') columns columns'
    (fun d mem t t' rearranged valid valid' key distinct' => ?_) mirrored
  exact rearranged.join valid valid' distinct' key
    (ready.right_keys d (List.mem_cons_of_mem _ mem)) d.kind

end Inputs

namespace Plan

theorem exists_project_of_rearranges {plan : Plan} {t' t u : Table}
    (rearranged : t'.Rearranges t) (valid' : t'.Valid) (ok : plan.project t = .ok u) :
    ∃ rows, plan.project t' = .ok ⟨u.columns, rows⟩ ∧ rows.Perm u.rows := by
  simp only [project_eq_ok] at ok ⊢
  exact rearranged.project valid' ok

end Plan

namespace ResolvedSpec

theorem Bound.of_turned {spec : ResolvedSpec} {schemas : Schemas} {edges : List JoinEdge}
    (bound : spec.Bound schemas) (turned : List.Forall₂ JoinEdge.Turned edges spec.joins) :
    { spec with joins := edges }.Bound schemas where
  joins e' mem' := by
    obtain ⟨e, mem, rfl | rfl⟩ := exists_of_mem_forall₂ turned.flip mem'
    · exact bound.joins _ mem
    · exact (bound.joins e mem).reversed
  select := bound.select
  filter := bound.filter
  group := bound.group
  having := bound.having

section Assembled

variable {spec : ResolvedSpec} {edges : List JoinEdge} {order order' : JoinOrder}
  {output : List OutputColumn} {sort : List SortKey} {schemas : Schemas} {data : Datasets}
  (fits : (spec.assembled order output sort).Fits schemas data)
  (fits' : ({ spec with joins := edges }.assembled order' output sort).Fits schemas data)
  (turned : order'.Turned order)

include fits fits' turned

theorem joinedTable_rearranges :
    (({ spec with joins := edges }.assembled order' output sort).joinedTable data).Rearranges
      ((spec.assembled order output sort).joinedTable data) := by
  have columns := nodup_columnsOf fits.plain
  have columns' := nodup_columnsOf fits'.plain
  rw [← Plan.columns_joinedTable, Plan.joinedTable, Inputs.columns_foldl_joinStep]
    at columns columns'
  cases turned with
  | same residual => exact .refl _
  | mirrored residual =>
    exact Inputs.rearranges_foldl_mirrored fits.covered.ready fits'.covered.ready columns columns'

theorem projected_assembled_turned (plain : spec.grouping? = none) :
    ∃ rows rows', (spec.assembled order output sort).projected data =
        .ok ⟨output.map OutputColumn.name, rows⟩ ∧
      ({ spec with joins := edges }.assembled order' output sort).projected data =
        .ok ⟨output.map OutputColumn.name, rows'⟩ ∧ rows'.Perm rows := by
  have columns := nodup_columnsOf fits.plain
  have columns' := nodup_columnsOf fits'.plain
  have kept := (joinedTable_rearranges fits fits' turned).kept fits.covered.filter_reads
  obtain ⟨rows, made⟩ := fits.covered.exists_projected_eq_ok columns plain
  have projected := made
  rw [fits.covered.projected_eq_grouped columns, Plan.grouped_of_none plain] at projected
  have valid' := Table.valid_kept fits'.joined_eq.2 (spec.assembled order output sort).filter
  obtain ⟨rows', projected', perm⟩ := Plan.exists_project_of_rearranges kept valid' projected
  refine ⟨rows, rows', made, ?_, perm⟩
  rw [fits'.covered.projected_eq_grouped columns', Plan.grouped_of_none plain]
  have filter := Table.kept_turned turned.residual
    (({ spec with joins := edges }.assembled order' output sort).joinedTable data) spec.filter
  exact (congrArg _ filter).trans projected'

end Assembled

end ResolvedSpec

namespace Spec

/-- Join conditions of any kinds may be written from either side, each for itself. The plan of the
changed spec exists, and without groups it has the same rows to show under the same columns; only a
sort of rows that it compares inconsistently can keep one of the two plans from showing them. -/
theorem execute_turned {spec : Spec} {schemas : Schemas} {default : JoinKind} {clauses : Clauses}
    {resolved : ResolvedSpec} {edges : List JoinEdge} {plan : Plan}
    (distinct : (spec.tables.map TableDecl.aliasName).Nodup)
    (dotFree : ∀ t ∈ spec.tables, '.' ∉ t.aliasName.toList)
    (resolves : spec.resolve schemas default clauses = .ok resolved)
    (ok : resolved.planned = .ok plan) (plain : plan.grouping = none)
    (turned : List.Forall₂ JoinEdge.Turned edges resolved.joins) :
    ∃ plan', { resolved with joins := edges }.planned = .ok plan' ∧
      plan'.outputNames = plan.outputNames ∧ plan'.sort = plan.sort ∧
      ∀ data : Datasets, data.AllValid → data.Covers schemas spec.tables →
        ∃ rows rows', plan.projected data = .ok ⟨plan.outputNames, rows⟩ ∧
          plan'.projected data = .ok ⟨plan.outputNames, rows'⟩ ∧ rows'.Perm rows ∧
          ∀ sorter, plan.Ends rows (plan.execute sorter data) ∧
            plan'.Ends rows (plan'.execute sorter data) := by
  obtain ⟨tables, bound⟩ := Spec.bound_of_resolve resolves
  obtain ⟨order, output, sort, ordered, rfl, planned⟩ := ResolvedSpec.planned_joins ok
  obtain ⟨order', ordered', turned_order⟩ := JoinOrder.exists_ofEdges_turned ordered turned
  have ok' := planned edges order' ordered'
  refine ⟨_, ok', rfl, rfl, fun data valid covers => ?_⟩
  rw [← tables] at distinct dotFree covers
  have wf := ResolvedSpec.wellFormed_of_planned bound distinct ok
  have wf' := ResolvedSpec.wellFormed_of_planned (bound.of_turned turned) distinct ok'
  obtain ⟨rows, rows', projected, projected', perm⟩ :=
    ResolvedSpec.projected_assembled_turned ⟨wf, distinct, dotFree, valid, covers⟩
      ⟨wf', distinct, dotFree, valid, covers⟩ turned_order plain
  refine ⟨rows, rows', projected, projected', perm, fun sorter => ⟨?_, ?_⟩⟩
  · exact Plan.ends_execute projected wf.sort sorter
  · exact (Plan.ends_execute projected' wf'.sort sorter).of_perm perm

def outerTriangle : Spec :=
  { triangle with
    joins := [⟨"x", "y", "r", "r", some .left⟩, ⟨"z", "y", "s", "s", some .full⟩,
      ⟨"x", "z", "p", "q", some .right⟩]
    filter := ["x.p = 1"] }

theorem execute_turned_triangle : ∃ clauses resolved plan plan',
    outerTriangle.resolve triangleSchemas .inner clauses = .ok resolved ∧
    resolved.planned = .ok plan ∧
    { resolved with joins := resolved.joins.map JoinEdge.reversed }.planned = .ok plan' ∧
    let data := triangleData (.int 2) (.int 2) (.int 1) (.int 1)
    ∃ rows rows', plan.projected data = .ok ⟨plan.outputNames, rows⟩ ∧
      plan'.projected data = .ok ⟨plan.outputNames, rows'⟩ ∧ rows'.Perm rows ∧
      ∀ sorter, plan.Ends rows (plan.execute sorter data) ∧
        plan'.Ends rows (plan'.execute sorter data) := by
  have distinct : (outerTriangle.tables.map TableDecl.aliasName).Nodup := triangle_distinct
  have dotFree : ∀ t ∈ outerTriangle.tables, '.' ∉ t.aliasName.toList := triangle_dotFree
  have compiles : (outerTriangle.compile triangleSchemas .inner).toOption.any (fun plan =>
      decide (plan.grouping = none)) = true := by decide +kernel
  obtain ⟨plan, made, plain⟩ := exists_of_any_toOption compiles
  obtain ⟨resolved, named, ok⟩ := bind_eq_ok.1 made
  obtain ⟨clauses, _, resolves⟩ := bind_eq_ok.1 named
  rw [mapError_eq_ok] at resolves
  have turned : List.Forall₂ JoinEdge.Turned (resolved.joins.map JoinEdge.reversed)
      resolved.joins :=
    List.forall₂_map_left_iff.2 (List.forall₂_same.2 fun _ _ => .inr rfl)
  obtain ⟨plan', ok', _, _, runs⟩ := execute_turned distinct dotFree resolves ok
    (of_decide_eq_true plain) turned
  exact ⟨clauses, resolved, plan, plan', resolves, ok, ok',
    runs _ (triangle_valid _ _ _ _) (triangle_covers _ _ _ _)⟩

end Spec

end TablePlan
