import TablePlan.Proofs.Execution.Selection
import TablePlan.Proofs.Resolution.Operands
import TablePlan.Proofs.Table.Filtering

/-!
Conditions that are stated together. A conjunction keeps the rows that its clauses keep one after
the other, in any order and however they are nested, and it asks for the columns that they ask for.
So the filter of a compiled plan keeps the joined rows that satisfy the join conditions left over
and every clause of the spec.
-/

namespace TablePlan

open Success

namespace Predicate

theorem truth_conjunction? (columns : List String) (row : Row) (clauses : List Predicate) :
    (∀ p ∈ conjunction? clauses, p.truth columns row = some true) ↔
    ∀ p ∈ clauses, p.truth columns row = some true := by
  have by_value (p : Predicate) :
      p.truth columns row = p.truthBy fun operand => operand.value columns row :=
    truth_eq_truthBy fun _ _ => rfl
  simp only [by_value]
  exact forall_conjunction?

end Predicate

namespace Table

def keptByEach (t : Table) (ps : List Predicate) : Table :=
  ⟨t.columns, t.rows.filter fun row => ps.all fun p => p.truth t.columns row == some true⟩

def filterEach : Table → List Predicate → Except TableError Table
  | t, [] => .ok t
  | t, p :: ps => do (← t.filter p).filterEach ps

variable {t t' : Table} {p : Predicate} {ps qs : List Predicate}

theorem holds_append {before after : List Operand} :
    t.Holds (before ++ after) ↔ t.Holds before ∧ t.Holds after :=
  List.forall_mem_append

theorem filter_eq_ok_iff_kept : t.filter p = .ok t' ↔
    t.Valid ∧ t.Holds p.operands ∧ t' = t.kept (some p) := by
  rw [filter_eq_ok, holds_iff]
  rfl

theorem filterEach_eq_ok : t.filterEach ps = .ok t' ↔
    (ps ≠ [] → t.Valid) ∧ t.Holds (ps.flatMap Predicate.operands) ∧ t' = t.keptByEach ps := by
  induction ps generalizing t with
  | nil =>
    have all : t.keptByEach [] = t := by simp [keptByEach]
    have none : t.Holds ([].flatMap Predicate.operands) := List.forall_mem_nil _
    rw [filterEach, all, Except.ok.injEq, eq_comm]
    exact ⟨fun same => ⟨absurd rfl, none, same⟩, fun ⟨_, _, same⟩ => same⟩
  | cons p ps ih =>
    have both : (t.kept (some p)).keptByEach ps = t.keptByEach (p :: ps) := by
      simp only [keptByEach, kept, List.filter_filter, Option.all_some, List.all_cons,
        Bool.and_comm]
    rw [filterEach, bind_eq_ok, List.flatMap_cons, holds_append]
    simp only [filter_eq_ok_iff_kept, ih]
    constructor
    · rintro ⟨_, ⟨valid, first, rfl⟩, _, rest, made⟩
      exact ⟨fun _ => valid, ⟨first, rest⟩, both ▸ made⟩
    · rintro ⟨valid, ⟨first, rest⟩, made⟩
      have valid := valid (List.cons_ne_nil p ps)
      exact ⟨_, ⟨valid, first, rfl⟩, fun _ => valid_kept valid _, rest, both ▸ made⟩

theorem holds_conjunction? (t : Table) {clauses : List Predicate} :
    (∀ p ∈ Predicate.conjunction? clauses, t.Holds p.operands) ↔
      ∀ p ∈ clauses, t.Holds p.operands := by
  have flat (ps : List Predicate) :
      t.Holds (ps.flatMap Predicate.operands) ↔ ∀ p ∈ ps, t.Holds p.operands :=
    List.forall_mem_flatMap
  rw [← flat, ← Predicate.flatMap_operands_conjunction?, flat]
  simp only [Option.mem_toList, Option.mem_def]

theorem filterEach_perm (perm : qs.Perm ps) :
    t.filterEach qs = .ok t' ↔ t.filterEach ps = .ok t' := by
  have operands : t.Holds (qs.flatMap Predicate.operands) ↔
      t.Holds (ps.flatMap Predicate.operands) :=
    forall_congr' fun _ => imp_congr_left (perm.flatMap_right _).mem_iff
  have nonempty : qs ≠ [] ↔ ps ≠ [] := by
    rw [← List.length_pos_iff, ← List.length_pos_iff, perm.length_eq]
  have kept : t.keptByEach qs = t.keptByEach ps := by
    simp only [keptByEach, perm.all_eq]
  rw [filterEach_eq_ok, filterEach_eq_ok, operands, nonempty, kept]

theorem keptByEach_eq_kept (t : Table) (clauses : List Predicate) :
    t.keptByEach clauses = t.kept (Predicate.conjunction? clauses) := by
  refine congrArg (Table.mk t.columns) (List.filter_congr fun row _ => ?_)
  rw [Bool.eq_iff_iff, List.all_eq_true, Option.all_eq_true]
  simp only [beq_iff_eq]
  exact (Predicate.truth_conjunction? _ _ _).symm

theorem conjunction_filter (perm : qs.Perm ps) :
    (Predicate.conjunction? ps = none → t.filterEach qs = .ok t' → t' = t) ∧
      ∀ p, Predicate.conjunction? ps = some p →
        (t.filter p = .ok t' ↔ t.filterEach qs = .ok t') := by
  rw [filterEach_perm perm, filterEach_eq_ok, keptByEach_eq_kept, ←
    Predicate.flatMap_operands_conjunction?]
  constructor
  · rintro none ⟨_, _, rfl⟩
    rw [none]
    simp [kept]
  · intro p some
    have nonempty : ps ≠ [] := by
      rintro rfl
      cases some
    simp [some, nonempty, filter_eq_ok_iff_kept]

end Table

namespace Plan

variable {plan : Plan} {data : Datasets} {t : Table}

theorem valid_of_joinAll {inputs : Inputs} {joined : Table} {edges : List JoinEdge}
    (ok : inputs.joinAll joined edges = .ok t) (valid : joined.Valid) : t.Valid := by
  induction edges generalizing inputs joined with
  | nil =>
    cases ok
    exact valid
  | cons e edges ih =>
    rw [Inputs.joinAll, bind_eq_ok] at ok
    obtain ⟨⟨right, rest⟩, _, ok⟩ := ok
    obtain ⟨next, made, ok⟩ := bind_eq_ok.1 ok
    obtain ⟨_, valid', _, _, distinct, rfl⟩ := Table.join_eq_ok.1 (Step.run_eq_ok.1 made)
    exact ih ok ⟨distinct, fun _ mem => Table.length_of_mem_joinRows valid valid' mem⟩

theorem valid_of_joined (ok : plan.joined data = .ok t) : t.Valid := by
  obtain ⟨inputs, made, ok⟩ := bind_eq_ok.1 ok
  obtain ⟨present, rfl⟩ := Inputs.ofTables_eq_ok.1 made
  obtain ⟨⟨root, rest⟩, taken, ok⟩ := bind_eq_ok.1 ok
  have found := (Inputs.take_eq_ok.1 taken).1
  exact valid_of_joinAll ok (Inputs.valid_of_find?_declared present found)

end Plan

def JoinEdge.equates (e : JoinEdge) (columns : List String) (row : Row) : Bool :=
  (row.named columns e.leftKey.text).compare (row.named columns e.rightKey.text) == some .eq

theorem JoinEdge.truth_condition (e : JoinEdge) (columns : List String) (row : Row) :
    (e.condition.truth columns row == some true) = e.equates columns row := by
  change (((row.named columns e.leftKey.text).compare (row.named columns e.rightKey.text)).map
    Comparison.eq.holds == some true) = _
  unfold equates
  cases (row.named columns e.leftKey.text).compare (row.named columns e.rightKey.text) with
  | none => rfl
  | some order => cases order <;> rfl

theorem forall_filter {holds : Predicate → Prop}
    (distributes : ∀ clauses : List Predicate,
      (∀ p ∈ Predicate.conjunction? clauses, holds p) ↔ ∀ p ∈ clauses, holds p)
    (residual : List JoinEdge) (clauses : List Predicate) :
    (∀ p ∈ Predicate.conjunction? (residual.map JoinEdge.condition ++
      (Predicate.conjunction? clauses).toList), holds p) ↔
      (∀ e ∈ residual, holds e.condition) ∧ ∀ c ∈ clauses, holds c := by
  rw [distributes, List.forall_mem_append, List.forall_mem_map]
  refine and_congr_right fun _ => Iff.trans ?_ (distributes clauses)
  simp only [Option.mem_toList, Option.mem_def]

namespace Spec

variable {spec : Spec} {schemas : Schemas} {default : JoinKind} {plan : Plan}

/-- The clauses of the filter as they are read and resolved. -/
def FilterClauses (spec : Spec) (scope : Scope) (clauses : List Predicate) : Prop :=
  List.Forall₂ (fun text clause => ∃ written, Predicate.read text = .ok written ∧
    written.mapOperandsM (scope.operand .filter) = .ok clause) spec.filter clauses

theorem filter_of_compile (ok : spec.compile schemas default = .ok plan) :
    ∃ resolved order clauses, spec.resolved schemas default = .ok resolved ∧
      resolved.joinOrder = .ok order ∧ spec.FilterClauses resolved.scope clauses ∧
      plan.filter = Predicate.conjunction? (order.residual.map JoinEdge.condition ++
        (Predicate.conjunction? clauses).toList) := by
  obtain ⟨resolved, order, output, sort, named, ordered, _, _, made⟩ := compile_eq_ok.1 ok
  obtain ⟨_, _, rfl⟩ := ResolvedSpec.assemble_eq_ok.1 made
  obtain ⟨clauses, read, stages, _⟩ := resolved_eq_ok.1 named
  obtain ⟨_, filter_read, _⟩ := Clauses.ofSpec_eq_ok.1 read
  obtain ⟨written, texts, same⟩ := bind_eq_ok.1 filter_read
  have filter := stages.filter
  rw [← pure_eq_ok.1 same, Predicate.resolve?_conjunction?] at filter
  obtain ⟨found, mapped, joined⟩ := map_eq_ok.1 filter
  refine ⟨resolved, order, found, named, ordered, ?_, ?_⟩
  · exact forall₂_trans (mapM_eq_ok.1 texts) (mapM_eq_ok.1 mapped)
  · rw [joined]
    rfl

/-- A conjunction keeps the rows that its clauses keep one after the other, in any order. The filter
of a compiled plan keeps the joined rows on which every join condition left over equates its keys
and every clause of the spec is true; it fails exactly if one of them reads a column that is not
there. -/
theorem conjunction_filters :
    (∀ ps qs : List Predicate, qs.Perm ps → ∀ t t' : Table,
      (Predicate.conjunction? ps = none → t.filterEach qs = .ok t' → t' = t) ∧
      ∀ p, Predicate.conjunction? ps = some p →
        (t.filter p = .ok t' ↔ t.filterEach qs = .ok t')) ∧
    ∀ (spec : Spec) (schemas : Schemas) (default : JoinKind) (plan : Plan),
      spec.compile schemas default = .ok plan → ∃ resolved order clauses,
        spec.resolved schemas default = .ok resolved ∧ resolved.joinOrder = .ok order ∧
        spec.FilterClauses resolved.scope clauses ∧
        ∀ data t, plan.joined data = .ok t → ∀ t',
          runIf plan.filter (fun t p => Step.filter.run (t.filter p)) t = .ok t' ↔
            (∀ e ∈ order.residual, t.Holds e.condition.operands) ∧
            (∀ c ∈ clauses, t.Holds c.operands) ∧
            t' = ⟨t.columns, t.rows.filter fun row =>
              (order.residual.all fun e => e.equates t.columns row) &&
                clauses.all fun c => c.truth t.columns row == some true⟩ := by
  refine ⟨fun ps qs perm t t' => Table.conjunction_filter perm, ?_⟩
  intro spec schemas default plan ok
  obtain ⟨resolved, order, clauses, named, ordered, texts, filter⟩ := filter_of_compile ok
  refine ⟨resolved, order, clauses, named, ordered, texts, fun data t joined t' => ?_⟩
  have valid := Plan.valid_of_joined joined
  have reads := forall_filter (fun _ => t.holds_conjunction?) order.residual clauses
  have rows : t.kept plan.filter = ⟨t.columns, t.rows.filter fun row =>
      (order.residual.all fun e => e.equates t.columns row) &&
        clauses.all fun c => c.truth t.columns row == some true⟩ := by
    refine congrArg (Table.mk t.columns) (List.filter_congr fun row _ => ?_)
    have truth := forall_filter (Predicate.truth_conjunction? t.columns row) order.residual clauses
    rw [Bool.eq_iff_iff, filter, Option.all_eq_true]
    simp only [beq_iff_eq, Bool.and_eq_true, List.all_eq_true, ← JoinEdge.truth_condition]
    exact truth
  rw [runIf_filter_eq_ok, rows, ← and_assoc, ← reads, ← filter]
  simp only [Table.holds_iff, valid, true_and]

def narrowed : Spec :=
  { triangle with filter := ["x.r IS NOT NULL AND y.s = z.s", "NOT x.p IS NULL"] }

theorem conjunction_filters_narrowed :
    (∃ p t', Predicate.conjunction? [.and Table.behind, .and [], .not (.or [])] = some p ∧
      Table.readings.filter p = .ok t' ∧
      Table.readings.filterEach [.not (.or []), .and [], .and Table.behind] = .ok t') ∧
    ∃ plan resolved clauses t t', narrowed.compile triangleSchemas .inner = .ok plan ∧
      narrowed.resolved triangleSchemas .inner = .ok resolved ∧
      narrowed.FilterClauses resolved.scope clauses ∧
      plan.joined (triangleData (.int 2) (.int 2) (.int 1) (.int 1)) = .ok t ∧
      runIf plan.filter (fun t p => Step.filter.run (t.filter p)) t = .ok t' ∧
      ∀ row ∈ t'.rows, ∀ c ∈ clauses, c.truth t.columns row = some true := by
  obtain ⟨lists, specs⟩ := conjunction_filters
  constructor
  · let clauses : List Predicate := [.and Table.behind, .and [], .not (.or [])]
    have valid : Table.readings.Valid := ⟨by decide, by decide⟩
    have kept : Table.readings.filter (.and (Table.behind ++ [.not (.or [])])) = .ok _ :=
      Table.filter_eq_ok_iff_kept.2 ⟨valid, Table.holds_iff.2 (by decide), rfl⟩
    exact ⟨_, _, rfl, kept, ((lists clauses _ clauses.reverse_perm _ _).2 _ rfl).1 kept⟩
  · let data := triangleData (.int 2) (.int 2) (.int 1) (.int 1)
    have runs : (narrowed.compile triangleSchemas .inner).toOption.any (fun plan =>
        (runIf plan.filter (fun t p => Step.filter.run (t.filter p))
          (plan.joinedTable data)).toOption.any fun _ => true) = true := by decide +kernel
    obtain ⟨plan, made, runs⟩ := exists_of_any_toOption runs
    obtain ⟨t', filtered, _⟩ := exists_of_any_toOption runs
    have tables := tables_of_compile made
    have fits : plan.Fits triangleSchemas data :=
      ⟨wellFormed_of_compile made triangle_distinct, tables ▸ triangle_distinct,
        tables ▸ triangle_dotFree, triangle_valid _ _ _ _, tables ▸ triangle_covers _ _ _ _⟩
    obtain ⟨resolved, _, clauses, named, _, texts, filter⟩ :=
      specs narrowed triangleSchemas .inner plan made
    obtain ⟨_, _, rfl⟩ := (filter data _ fits.joined_eq.1 t').1 filtered
    refine ⟨plan, resolved, clauses, _, _, made, named, texts, fits.joined_eq.1, filtered, ?_⟩
    intro row mem c mem_c
    have truths := (List.mem_filter.1 mem).2
    simp only [Bool.and_eq_true, List.all_eq_true, beq_iff_eq] at truths
    exact truths.2 c mem_c

end Spec

end TablePlan
