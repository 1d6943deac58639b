import TablePlan.Proofs.Execution.Valuations
import TablePlan.Proofs.JoinOrder.Exchange

/-!
The valuations that plans of inner joins accept. An edge that closes a cycle is compared where the
others match; another order of the edges accepts the same valuations as far as the two equalities
may trade places.
-/

namespace TablePlan

namespace JoinEdge

/-- Whether the keys of an edge match, as in a join. -/
def MatchesIn (e : JoinEdge) (v : ColumnRef → Cell) : Prop :=
  (v e.leftKey).matches (v e.rightKey) = true

/-- Whether the keys of an edge compare as equal, as in a condition. -/
def EqualIn (e : JoinEdge) (v : ColumnRef → Cell) : Prop :=
  (v e.leftKey).compare (v e.rightKey) = some .eq

theorem matchesIn_reversed (e : JoinEdge) (v : ColumnRef → Cell) :
    e.reversed.MatchesIn v ↔ e.MatchesIn v := by
  rw [MatchesIn, MatchesIn, Cell.matches_comm]
  rfl

theorem truthBy_condition (e : JoinEdge) (v : ColumnRef → Cell) :
    e.condition.truthBy (Operand.valueOf v) = some true ↔ e.EqualIn v := by
  rw [condition, Predicate.truthBy, Option.map_eq_some_iff]
  simp [Comparison.holds, EqualIn, Operand.valueOf]

end JoinEdge

namespace JoinOrder

/-- Whether a valuation satisfies the edges, each as the order has it. -/
def Accepts (order : JoinOrder) (v : ColumnRef → Cell) : Prop :=
  (∀ e ∈ order.steps, e.MatchesIn v) ∧ ∀ e ∈ order.residual, e.EqualIn v

section Exchange

variable {aliases : List String} {edges edges' : List JoinEdge} {order order' : JoinOrder}
  {pairs : Cell → Cell → Prop} {v : ColumnRef → Cell}

theorem Accepts.exchange (accepts : order.Accepts v) (distinct : aliases.Nodup)
    (declared : Declared aliases edges) (permuted : edges'.Perm edges)
    (ok : ofEdges aliases edges = .ok order) (ok' : ofEdges aliases edges' = .ok order')
    (exchangeable : Exchangeable pairs)
    (moved : ∀ e ∈ edges, ¬ (e.MadeIn order.steps ↔ e.MadeIn order'.steps) →
      pairs (v e.leftKey) (v e.rightKey)) : order'.Accepts v := by
  have declared' : Declared aliases edges' := fun e mem => declared e (permuted.subset mem)
  obtain ⟨picks, greedy⟩ := exists_greedy declared ok
  obtain ⟨picks', greedy'⟩ := exists_greedy declared' ok'
  have once := (exists_ofEdges_eq_ok.1 ⟨order, ok⟩).once
  have once' := (exists_ofEdges_eq_ok.1 ⟨order', ok'⟩).once
  have left {e : JoinEdge} : e ∈ order.residual ↔ e ∈ edges ∧ ¬ e.MadeIn order.steps :=
    greedy.mem_residual_iff once
  have left' {e : JoinEdge} : e ∈ order'.residual ↔ e ∈ edges ∧ ¬ e.MadeIn order'.steps := by
    rw [greedy'.mem_residual_iff once', permuted.mem_iff]
  have matched := (greedy.forall_steps fun e => e.matchesIn_reversed v).1 accepts.1
  -- Two edges that trade places: the first is a step in `order`, the second in `order'`.
  have trade {d e : JoinEdge} (d_left : d ∈ order'.residual) (d_made : d ∉ order.residual)
      (e_left : e ∈ order.residual) (e_made : e ∉ order'.residual) :
      d.EqualIn v ∧ e.MatchesIn v := by
    have d_mem := (left'.1 d_left).1
    have e_mem := (left.1 e_left).1
    have d_step : d.MadeIn order.steps := by_contra fun unmade => d_made (left.2 ⟨d_mem, unmade⟩)
    have e_step : e.MadeIn order'.steps := by_contra fun unmade => e_made (left'.2 ⟨e_mem, unmade⟩)
    have d_moved := moved d d_mem fun same => (left'.1 d_left).2 (same.1 d_step)
    have e_moved := moved e e_mem fun same => (left.1 e_left).2 (same.2 e_step)
    exact exchangeable _ _ _ _ d_moved e_moved (matched d d_mem d_step) (accepts.2 e e_left)
  constructor
  · refine (greedy'.forall_steps fun e => e.matchesIn_reversed v).2 fun e mem made' => ?_
    have e_mem := permuted.subset mem
    have e_made : e ∉ order'.residual := fun e_left => (left'.1 e_left).2 made'
    by_cases made : e.MadeIn order.steps
    · exact matched e e_mem made
    · have e_left := left.2 ⟨e_mem, made⟩
      obtain ⟨d, d_left, d_made⟩ := exists_left_over distinct declared permuted ok ok' e_left e_made
      exact (trade d_left d_made e_left e_made).2
  · intro d d_left
    by_cases d_made : d ∈ order.residual
    · exact accepts.2 d d_made
    · obtain ⟨e, e_left, e_made⟩ :=
        exists_left_over distinct declared' permuted.symm ok' ok d_left d_made
      exact (trade d_left d_made e_left e_made).1

end Exchange

theorem inner_steps {aliases : List String} {edges : List JoinEdge} {order : JoinOrder}
    (declared : Declared aliases edges) (ok : ofEdges aliases edges = .ok order)
    (inner : ∀ e ∈ edges, e.kind = .inner) : ∀ e ∈ order.steps, e.kind = .inner := by
  obtain ⟨picks, greedy⟩ := exists_greedy declared ok
  have either (e : JoinEdge) : e.reversed.kind = .inner ↔ e.kind = .inner := by
    change e.kind.swapped = .inner ↔ e.kind = .inner
    cases e.kind <;> decide
  exact (greedy.forall_steps either).2 fun e mem _ => inner e mem

end JoinOrder

namespace ResolvedSpec

variable {resolved : ResolvedSpec} {edges : List JoinEdge} {order order' : JoinOrder}
  {output : List OutputColumn} {sort : List SortKey} {v : ColumnRef → Cell}

theorem accepts_assembled : (resolved.assembled order output sort).accepts v = true ↔
    order.Accepts v ∧ ∀ p ∈ resolved.filter, p.truthBy (Operand.valueOf v) = some true := by
  let clauses := order.residual.map JoinEdge.condition ++ resolved.filter.toList
  have conditions : (∀ p ∈ Predicate.conjunction? clauses,
        p.truthBy (Operand.valueOf v) = some true) ↔
      ∀ p ∈ clauses, p.truthBy (Operand.valueOf v) = some true := Predicate.forall_conjunction?
  simp only [clauses, List.forall_mem_append, List.forall_mem_map, JoinEdge.truthBy_condition,
    Option.mem_toList, Option.mem_def] at conditions
  simp only [Plan.accepts, assembled, Bool.and_eq_true, List.all_eq_true, Option.all_eq_true,
    beq_iff_eq, Option.mem_def, conditions]
  exact and_assoc.symm

theorem accepts_reordered {pairs : Cell → Cell → Prop} (exchangeable : Exchangeable pairs)
    (distinct : (resolved.tables.map TableDecl.aliasName).Nodup)
    (declared : JoinOrder.Declared (resolved.tables.map TableDecl.aliasName) resolved.joins)
    (perm : edges.Perm resolved.joins) (ordered : resolved.joinOrder = .ok order)
    (ordered' : { resolved with joins := edges }.joinOrder = .ok order')
    (moved : ∀ e ∈ resolved.joins, ¬ (e.MadeIn order.steps ↔ e.MadeIn order'.steps) →
      pairs (v e.leftKey) (v e.rightKey)) :
    ({ resolved with joins := edges }.assembled order' output sort).accepts v =
      (resolved.assembled order output sort).accepts v := by
  have declared' : JoinOrder.Declared (resolved.tables.map TableDecl.aliasName) edges :=
    fun e mem => declared e (perm.subset mem)
  have moved' : ∀ e ∈ edges, ¬ (e.MadeIn order'.steps ↔ e.MadeIn order.steps) →
      pairs (v e.leftKey) (v e.rightKey) :=
    fun e mem differ => moved e (perm.subset mem) fun same => differ same.symm
  have same : order'.Accepts v ↔ order.Accepts v := by
    constructor
    · intro accepts
      exact accepts.exchange distinct declared' perm.symm ordered' ordered exchangeable moved'
    · intro accepts
      exact accepts.exchange distinct declared perm ordered ordered' exchangeable moved
  rw [Bool.eq_iff_iff, accepts_assembled, accepts_assembled, same]

end ResolvedSpec

end TablePlan
