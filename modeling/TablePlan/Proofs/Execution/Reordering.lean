import TablePlan.Proofs.Execution.Acceptance
import TablePlan.Proofs.Plan.Reordering

/-!
Inner joins written in another order. The order decides which edges of a cycle are joined and which
is compared, so it does not matter exactly as far as the two equalities of cells may trade places.
-/

namespace TablePlan

open Success

namespace Spec

/-- Whether inner joins may be written in any order: the plan of the other order exists and has rows
to show, and these are the same if the key cells of the edges that one order joins and the other
compares are of these pairs. -/
def OrderFree (pairs : Cell → Cell → Prop) : Prop :=
  ∀ (spec : Spec) (joins : List JoinCondition) (schemas : Schemas) (default : JoinKind)
    (resolved : ResolvedSpec) (plan : Plan),
    (spec.tables.map TableDecl.aliasName).Nodup → (∀ t ∈ spec.tables, '.' ∉ t.aliasName.toList) →
    spec.resolved schemas default = .ok resolved → (∀ e ∈ resolved.joins, e.kind = .inner) →
    spec.compile schemas default = .ok plan → plan.grouping = none → joins.Perm spec.joins →
    ∃ plan', { spec with joins := joins }.compile schemas default = .ok plan' ∧
      plan'.outputNames = plan.outputNames ∧ plan'.sort = plan.sort ∧
      ∀ data : Datasets, data.AllValid → data.Covers schemas spec.tables →
        ∃ rows rows', plan.projected data = .ok ⟨plan.outputNames, rows⟩ ∧
          plan'.projected data = .ok ⟨plan.outputNames, rows'⟩ ∧
          (∀ sorter, plan.Ends rows (plan.execute sorter data) ∧
            plan'.Ends rows' (plan'.execute sorter data)) ∧
          ((∀ e ∈ resolved.joins, ¬ (e.MadeIn plan.joins ↔ e.MadeIn plan'.joins) →
            ∀ a b, data.Shows spec.tables e.leftKey a → data.Shows spec.tables e.rightKey b →
              pairs a b) → rows'.Perm rows)

theorem orderFree_of_exchangeable {pairs : Cell → Cell → Prop}
    (exchangeable : Exchangeable pairs) : OrderFree pairs := by
  intro spec joins schemas default resolved plan distinct dotFree named inner ok plain permuted
  obtain ⟨resolved', edges, order, order', output, sort, named', perm, ordered, ordered', rfl,
    ok'⟩ := compile_perm ok permuted
  cases named.symm.trans named'
  obtain ⟨tables, bound⟩ := of_resolved_eq_ok named
  refine ⟨_, ok', rfl, rfl, fun data valid covers => ?_⟩
  have wf := wellFormed_of_compile ok distinct
  have wf' := wellFormed_of_compile ok' distinct
  rw [← tables] at distinct dotFree covers ⊢
  have fits : (resolved.assembled order output sort).Fits schemas data :=
    ⟨wf, distinct, dotFree, valid, covers⟩
  have fits' : ({ resolved with joins := edges }.assembled order' output sort).Fits schemas data :=
    ⟨wf', distinct, dotFree, valid, covers⟩
  have declared : JoinOrder.Declared (resolved.tables.map TableDecl.aliasName) resolved.joins :=
    fun e mem => (bound.joins e mem).ends_mem
  have declared' : JoinOrder.Declared (resolved.tables.map TableDecl.aliasName) edges :=
    fun e mem => declared e (perm.subset mem)
  have inner' : ∀ e ∈ edges, e.kind = .inner := fun e mem => inner e (perm.subset mem)
  have projected := fits.projected_eq_valuations
    (JoinOrder.inner_steps declared ordered inner) plain
  have projected' := fits'.projected_eq_valuations
    (JoinOrder.inner_steps declared' ordered' inner') plain
  refine ⟨_, _, projected, projected', fun sorter => ?_, fun moved => ?_⟩
  · exact ⟨Plan.ends_execute projected wf.sort sorter, Plan.ends_execute projected' wf'.sort sorter⟩
  have sources := fits'.covered.sources_perm.trans fits.covered.sources_perm.symm
  have accepted : ∀ v ∈ valuations ((resolved.assembled order output sort).sources data),
      ({ resolved with joins := edges }.assembled order' output sort).accepts v =
        (resolved.assembled order output sort).accepts v := by
    intro v mem
    refine ResolvedSpec.accepts_reordered exchangeable distinct declared perm ordered ordered'
      fun e mem_e differ => ?_
    have keys := bound.joins e mem_e
    exact moved e mem_e differ _ _ (fits.shows_of_mem_valuations mem keys.left_declared)
      (fits.shows_of_mem_valuations mem keys.right_declared)
  have kept := ((valuations_perm sources fits'.plain.distinct).filter
    ({ resolved with joins := edges }.assembled order' output sort).accepts)
  rw [List.filter_congr accepted] at kept
  exact kept.map _

def triangleEdge (a b left right : String) : JoinEdge :=
  ⟨a, b, .qualified a left, .qualified b right, .inner⟩

def triangleCells (s s' p q : Cell) : ColumnRef → Cell :=
  cellAt (triangle.tables.map fun t => ⟨t.aliasName, (triangleData s s' p q).tableOf t⟩) [0, 0, 0]

theorem triangle_shows {s s' p q c : Cell} {ref : ColumnRef}
    (shows : (triangleData s s' p q).Shows triangle.tables ref c) :
    triangleCells s s' p q ref = c := by
  obtain ⟨t, mem, named, row, mem_row, rfl⟩ := shows
  unfold triangleCells
  simp only [triangle, List.mem_cons, List.not_mem_nil, or_false] at mem
  obtain rfl | rfl | rfl := mem
  all_goals
    cases List.mem_singleton.1 mem_row
    simp [triangle, cellAt, named]
    rfl

theorem triangle_rows {plan : Plan} (wf : plan.WellFormed triangleSchemas)
    (tables : plan.tables = triangle.tables) (inner : ∀ e ∈ plan.joins, e.kind = .inner)
    (plain : plan.grouping = none) {s s' p q : Cell} {t : Table}
    (projected : plan.projected (triangleData s s' p q) = .ok t) :
    t.rows ≠ [] ↔ plan.accepts (triangleCells s s' p q) = true := by
  have fits : plan.Fits triangleSchemas (triangleData s s' p q) :=
    ⟨wf, tables ▸ triangle_distinct, tables ▸ triangle_dotFree, triangle_valid s s' p q,
      tables ▸ triangle_covers s s' p q⟩
  cases projected.symm.trans (fits.projected_eq_valuations inner plain)
  have sources := fits.covered.sources_perm
  rw [tables] at sources
  have kept := (valuations_perm sources fits.plain.distinct).filter plan.accepts
  have single : valuations (triangle.tables.map fun t =>
      ⟨t.aliasName, (triangleData s s' p q).tableOf t⟩) = [triangleCells s s' p q] := rfl
  have shown := kept.map plan.shown
  rw [single] at shown
  rw [← List.length_pos_iff, shown.length_eq, List.length_map, List.length_pos_iff]
  simp

theorem triangle_runs {joins : List JoinCondition} {edges : List JoinEdge} {order : JoinOrder}
    {plan : Plan}
    (resolves : ({ triangle with joins := joins }.resolved triangleSchemas .inner).toOption.any
      (fun resolved : ResolvedSpec => decide (resolved.joins = edges) && resolved.filter.isNone &&
        !resolved.isAggregated) = true)
    (inner : ∀ e ∈ edges, e.kind = .inner)
    (ordered : JoinOrder.ofEdges ["x", "y", "z"] edges = .ok order)
    (ok : { triangle with joins := joins }.compile triangleSchemas .inner = .ok plan) :
    plan.joins = order.steps ∧ plan.grouping = none ∧
      ∀ s s' p q t, plan.projected (triangleData s s' p q) = .ok t →
        (t.rows ≠ [] ↔ order.Accepts (triangleCells s s' p q)) := by
  have wf := wellFormed_of_compile ok triangle_distinct
  obtain ⟨resolved, order', output, sort, named, ordered', _, _, made⟩ := compile_eq_ok.1 ok
  obtain ⟨_, _, rfl⟩ := ResolvedSpec.assemble_eq_ok.1 made
  obtain ⟨tables, bound⟩ := of_resolved_eq_ok named
  obtain ⟨resolved', named', facts⟩ := exists_of_any_toOption resolves
  cases named.symm.trans named'
  simp only [Bool.and_eq_true, decide_eq_true_eq, Option.isNone_iff_eq_none, Bool.not_eq_true']
    at facts
  obtain ⟨⟨rfl, unfiltered⟩, plain⟩ := facts
  have aliases : resolved.tables.map TableDecl.aliasName = ["x", "y", "z"] := by
    rw [tables]
    rfl
  have grouping : (resolved.assembled order' output sort).grouping = none := by
    simp [ResolvedSpec.assembled, ResolvedSpec.grouping?, plain]
  unfold ResolvedSpec.joinOrder at ordered'
  rw [aliases, ordered] at ordered'
  cases ordered'
  have declared : JoinOrder.Declared ["x", "y", "z"] resolved.joins :=
    fun e mem => aliases ▸ (bound.joins e mem).ends_mem
  refine ⟨rfl, grouping, fun s s' p q t projected => ?_⟩
  rw [triangle_rows wf tables (JoinOrder.inner_steps declared ordered inner) grouping projected,
    ResolvedSpec.accepts_assembled, unfiltered]
  simp

def xyEdge : JoinEdge :=
  triangleEdge "x" "y" "r" "r"

def yzEdge : JoinEdge :=
  triangleEdge "y" "z" "s" "s"

def xzEdge : JoinEdge :=
  triangleEdge "x" "z" "p" "q"

def exchangedJoins : List JoinCondition :=
  [⟨"x", "y", "r", "r", none⟩, ⟨"x", "z", "p", "q", none⟩, ⟨"y", "z", "s", "s", none⟩]

theorem triangle_resolves : (triangle.resolved triangleSchemas .inner).toOption.any
    (fun resolved : ResolvedSpec => decide (resolved.joins = [xyEdge, yzEdge, xzEdge]) &&
      resolved.filter.isNone && !resolved.isAggregated) = true := by
  decide +kernel

theorem exchanged_resolves :
    ({ triangle with joins := exchangedJoins }.resolved triangleSchemas .inner).toOption.any
      (fun resolved : ResolvedSpec => decide (resolved.joins = [xyEdge, xzEdge, yzEdge]) &&
        resolved.filter.isNone && !resolved.isAggregated) = true := by
  decide +kernel

theorem triangle_ordered : JoinOrder.ofEdges ["x", "y", "z"] [xyEdge, yzEdge, xzEdge] =
    .ok ⟨"x", [xyEdge, yzEdge], [xzEdge]⟩ := by
  cbv

theorem exchanged_ordered : JoinOrder.ofEdges ["x", "y", "z"] [xyEdge, xzEdge, yzEdge] =
    .ok ⟨"x", [xyEdge, xzEdge], [yzEdge]⟩ := by
  cbv

/-- If the order does not matter for some pairs of cells, then these are exchangeable: in the
triangle, the edges of two such pairs trade places. -/
theorem exchangeable_of_orderFree {pairs : Cell → Cell → Prop} (free : OrderFree pairs) :
    Exchangeable pairs := by
  intro a b c d first second matched equal
  have compiles : (triangle.compile triangleSchemas .inner).toOption.any (fun _ => true) = true :=
    by decide +kernel
  obtain ⟨resolved, named, facts⟩ := exists_of_any_toOption triangle_resolves
  obtain ⟨plan, ok, _⟩ := exists_of_any_toOption compiles
  simp only [Bool.and_eq_true, decide_eq_true_eq] at facts
  have edges : resolved.joins = [xyEdge, yzEdge, xzEdge] := facts.1.1
  have inner : ∀ e ∈ [xyEdge, yzEdge, xzEdge], e.kind = .inner := by
    simp [xyEdge, yzEdge, xzEdge, triangleEdge]
  have inner' : ∀ e ∈ [xyEdge, xzEdge, yzEdge], e.kind = .inner := by
    simp [xyEdge, yzEdge, xzEdge, triangleEdge]
  obtain ⟨steps, plain, shows⟩ := triangle_runs triangle_resolves inner triangle_ordered ok
  have permuted : exchangedJoins.Perm triangle.joins := by decide
  obtain ⟨plan', ok', _, _, runs⟩ := free triangle exchangedJoins triangleSchemas .inner resolved
    plan triangle_distinct triangle_dotFree named (edges ▸ inner) ok plain permuted
  obtain ⟨steps', _, shows'⟩ := triangle_runs exchanged_resolves inner' exchanged_ordered ok'
  obtain ⟨rows, rows', projected, projected', _, same⟩ :=
    runs _ (triangle_valid a b c d) (triangle_covers a b c d)
  have moved : ∀ e ∈ resolved.joins, ¬ (e.MadeIn plan.joins ↔ e.MadeIn plan'.joins) →
      ∀ left right, (triangleData a b c d).Shows triangle.tables e.leftKey left →
        (triangleData a b c d).Shows triangle.tables e.rightKey right → pairs left right := by
    intro e mem differ left right at_left at_right
    rw [edges] at mem
    rw [steps, steps'] at differ
    rw [← triangle_shows at_left, ← triangle_shows at_right]
    simp only [List.mem_cons, List.not_mem_nil, or_false] at mem
    obtain rfl | rfl | rfl := mem
    · exact absurd (iff_of_true (.inl List.mem_cons_self) (.inl List.mem_cons_self)) differ
    · exact first
    · exact second
  have accepted : JoinOrder.Accepts ⟨"x", [xyEdge, yzEdge], [xzEdge]⟩ (triangleCells a b c d) := by
    refine ⟨List.forall_mem_cons.2 ⟨rfl, List.forall_mem_singleton.2 matched⟩, ?_⟩
    exact List.forall_mem_singleton.2 equal
  have shown : rows ≠ [] := (shows a b c d _ projected).2 accepted
  have shown' : rows' ≠ [] := fun none => shown (none ▸ (same moved).symm).eq_nil
  have accepted' := (shows' a b c d _ projected').1 shown'
  exact ⟨accepted'.2 yzEdge List.mem_cons_self,
    accepted'.1 xzEdge (List.mem_cons_of_mem _ List.mem_cons_self)⟩

/-- The order in which inner joins are written does not matter exactly for those pairs of key cells
on which the two equalities may trade places. -/
theorem orderFree_iff (pairs : Cell → Cell → Prop) : OrderFree pairs ↔ Exchangeable pairs :=
  ⟨exchangeable_of_orderFree, orderFree_of_exchangeable⟩

theorem orderFree_direct : OrderFree fun a b => a.converts b = false :=
  orderFree_of_exchangeable exchangeable_direct

/-- Joins whose edges close no cycle have no edge that is left over, and need no condition. -/
example : OrderFree fun _ _ => False :=
  orderFree_of_exchangeable fun _ _ _ _ none => none.elim

/-- A date and a text that reads as it tell two orders apart. -/
theorem not_orderFree : ¬ OrderFree fun _ _ => True := by
  intro free
  have reads : (Calendar.Date.ofText? .beforeNumbers "2024-01-31").isSome = true := by
    decide +kernel
  obtain ⟨day, read⟩ := Option.isSome_iff_exists.1 reads
  have equal : (Cell.date day).compare (.text "2024-01-31") = some .eq := by
    rw [Cell.compare, read, Option.map_some, Calendar.Date.compare_eq_iff.2 rfl]
  have agree := (exchangeable_iff (a := .bool true) (b := .bool true) trivial rfl rfl).1
    (exchangeable_of_orderFree free)
  have matched := (agree (.date day) (.text "2024-01-31") trivial).2 equal
  cases (Cell.matches_iff.1 matched).2.2

end Spec

end TablePlan
