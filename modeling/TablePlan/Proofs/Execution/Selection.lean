import TablePlan.Proofs.Execution.InnerJoin
import TablePlan.Proofs.Execution.Outcome
import TablePlan.Proofs.Predicate
import TablePlan.Sorter.Standard

/-!
What plans of inner joins compute. Their rows are the choices of one row of each table that satisfy
all edges and the filter, in the order of row positions, and nothing else.
-/

namespace TablePlan

open Success

theorem kept_product {sources : List Source} {holds test : List Nat → Bool}
    {wanted : Option Predicate} (same : ∀ positions, InRange sources positions →
      (wanted.all fun p => p.truth (columnsOf sources) (combined sources positions) == some true) =
        test positions) :
    (product sources holds).kept wanted =
      product sources fun positions => holds positions && test positions := by
  have rows : ((product sources holds).rows.filter fun row =>
      wanted.all fun p => p.truth (columnsOf sources) row == some true) =
      ((choices sources).filter fun positions => holds positions && test positions).map
        (combined sources) := by
    rw [show (product sources holds).rows =
      ((choices sources).filter holds).map (combined sources) from rfl, List.filter_map,
      List.filter_filter]
    refine congrArg _ (List.filter_congr fun positions chosen => ?_)
    rw [Function.comp_apply, same positions (mem_choices.1 chosen), Bool.and_comm]
  exact congrArg (Table.mk _) rows

namespace Plan

variable {plan : Plan} {schemas : Schemas} {data : Datasets}

/-- A choice of one row of each table that satisfies all edges and the filter of a plan. -/
structure Selects (plan : Plan) (data : Datasets) (positions : List Nat) : Prop where
  inRange : InRange (plan.sources data) positions
  joins : ∀ e ∈ plan.joins,
    (cellAt (plan.sources data) positions e.leftKey).isNull = false ∧
    (cellAt (plan.sources data) positions e.rightKey).isNull = false ∧
    (cellAt (plan.sources data) positions e.leftKey).key =
      (cellAt (plan.sources data) positions e.rightKey).key
  filter : ∀ p ∈ plan.filter,
    p.truthBy (Operand.valueOf (cellAt (plan.sources data) positions)) = some true

def outputRow (plan : Plan) (data : Datasets) (positions : List Nat) : Row :=
  plan.output.map fun o => o.source.toOperand.valueOf (cellAt (plan.sources data) positions)

/-- The choices of a plan in the order of row positions. -/
def selection (plan : Plan) (data : Datasets) : List (List Nat) :=
  (choices (plan.sources data)).filter fun positions =>
    (plan.joins.all fun e => e.holdsAt (plan.sources data) positions) &&
      plan.filter.all fun p =>
        p.truthBy (Operand.valueOf (cellAt (plan.sources data) positions)) == some true

def selected (plan : Plan) (data : Datasets) : Table :=
  ⟨plan.outputNames, (plan.selection data).map (plan.outputRow data)⟩

theorem mem_selection {positions : List Nat} :
    positions ∈ plan.selection data ↔ plan.Selects data positions := by
  simp only [selection, List.mem_filter, mem_choices, Bool.and_eq_true, List.all_eq_true,
    Option.all_eq_true, beq_iff_eq, JoinEdge.holdsAt, Cell.matches_iff]
  constructor
  · rintro ⟨inRange, joins, filter⟩
    exact ⟨inRange, joins, filter⟩
  · rintro ⟨inRange, joins, filter⟩
    exact ⟨inRange, joins, filter⟩

namespace Fits

variable (fits : plan.Fits schemas data)

include fits

theorem joinedTable_eq_product (inner : ∀ e ∈ plan.joins, e.kind = .inner) :
    plan.joinedTable data = product (plan.sources data) fun positions =>
      plan.joins.all fun e => e.holdsAt (plan.sources data) positions := by
  have plain := fits.plain
  have sources : plan.sources data =
      [plan.source data plan.root] ++ plan.joins.map fun e => plan.source data e.rightAlias := by
    rw [Plan.sources, scanned, List.map_cons, List.map_map]
    rfl
  rw [sources] at plain ⊢
  have left_present (k : Nat) (e : JoinEdge) (at_k : plan.joins[k]? = some e) :
      e.leftKey.text ∈ columnsOf ([plan.source data plan.root] ++
        (plan.joins.take k).map fun e => plan.source data e.rightAlias) := by
    rw [columnsOf, List.flatMap_append, List.flatMap_singleton, List.flatMap_map]
    exact fits.covered.left_key_mem k e at_k
  have keys (e : JoinEdge) (mem : e ∈ plan.joins) : e.leftKey.IsPlain ∧ e.rightKey.IsPlain :=
    have bound := fits.wellFormed.joins e mem
    ⟨fits.isPlain bound.left_declared, fits.isPlain bound.right_declared⟩
  have none : ∀ e ∈ ([] : List JoinEdge), e.On [plan.source data plan.root] := by simp
  have run := foldl_joinStep_product plain none inner keys left_present fits.covered.right_key_mem
  rw [joinedTable, ← product_single]
  exact run

theorem named_combined_eq {positions : List Nat}
    (chosen : InRange (plan.sources data) positions) {ref : ColumnRef}
    (declared : ref.Declared schemas plan.tables) :
    (combined (plan.sources data) positions).named (columnsOf (plan.sources data)) ref.text =
      cellAt (plan.sources data) positions ref :=
  named_combined fits.plain chosen (fits.isPlain declared)
    (fits.covered.text_mem_of_declared declared)

theorem truth_eq_truthBy {positions : List Nat}
    (chosen : InRange (plan.sources data) positions) {p : Predicate} (filter : p ∈ plan.filter) :
    p.truth (columnsOf (plan.sources data)) (combined (plan.sources data) positions) =
      p.truthBy (Operand.valueOf (cellAt (plan.sources data) positions)) := by
  refine Predicate.truth_eq_truthBy fun operand mem => ?_
  cases operand with
  | column ref =>
    have read := Predicate.mem_refs.2 ⟨_, mem, List.mem_singleton_self ref⟩
    exact fits.named_combined_eq chosen (fits.wellFormed.filter p filter ref read)
  | literal _ => rfl
  | aggregate call =>
    have plain := List.filterMap_eq_nil_iff.1 (fits.wellFormed.filter_plain p filter) _ mem
    cases plain

variable (inner : ∀ e ∈ plan.joins, e.kind = .inner)

include inner

theorem kept_joinedTable : (plan.joinedTable data).kept plan.filter =
    ⟨columnsOf (plan.sources data),
      (plan.selection data).map (combined (plan.sources data))⟩ := by
  rw [fits.joinedTable_eq_product inner]
  refine kept_product fun positions chosen => ?_
  rw [Bool.eq_iff_iff, Option.all_eq_true, Option.all_eq_true]
  refine forall₂_congr fun p filter => ?_
  rw [fits.truth_eq_truthBy chosen filter]

theorem project_kept (plain : plan.grouping = none) :
    ((plan.joinedTable data).kept plan.filter).project (plan.output.map OutputColumn.renaming) =
      .ok (plan.selected data) := by
  have kept := fits.kept_joinedTable inner
  have rows : ((plan.selection data).map (combined (plan.sources data))).map (fun row =>
      (plan.output.map OutputColumn.renaming).map fun c =>
        row.named (columnsOf (plan.sources data)) c.source) =
      (plan.selection data).map (plan.outputRow data) := by
    rw [List.map_map]
    refine List.map_congr_left fun positions chosen => ?_
    rw [Function.comp_apply, List.map_map, outputRow]
    refine List.map_congr_left fun o mem => ?_
    obtain ⟨ref, source, declared⟩ := fits.wellFormed.plain_output plain o mem
    rw [Function.comp_apply, OutputColumn.renaming, source]
    exact fits.named_combined_eq (mem_selection.1 chosen).inRange declared
  refine Table.project_eq_ok.2 ⟨Table.valid_kept fits.joined_eq.2 plan.filter, ?_, ?_, ?_⟩
  · refine List.forall_mem_map.2 fun o mem => ?_
    obtain ⟨ref, source, declared⟩ := fits.wellFormed.plain_output plain o mem
    rw [OutputColumn.renaming, source]
    exact fits.covered.present ref declared
  · rw [map_name_renaming]
    exact fits.wellFormed.names
  · rw [kept, map_name_renaming, rows]
    rfl

theorem projected_eq_selected (plain : plan.grouping = none) :
    plan.projected data = .ok (plan.selected data) := by
  have columns := nodup_columnsOf fits.plain
  rw [fits.covered.projected_eq_grouped columns, grouped_of_none plain]
  exact project_eq_ok.2 (fits.project_kept inner plain)

end Fits

end Plan

namespace Spec

/-- A plan of inner joins computes the filtered product of its tables: its rows are those of the
choices that satisfy all edges and the filter, in the lexicographic order of row positions. -/
theorem execute_inner {spec : Spec} {schemas : Schemas} {default : JoinKind} {plan : Plan}
    {data : Datasets} (distinct : (spec.tables.map TableDecl.aliasName).Nodup)
    (dotFree : ∀ t ∈ spec.tables, '.' ∉ t.aliasName.toList)
    (ok : spec.compile schemas default = .ok plan) (inner : ∀ e ∈ plan.joins, e.kind = .inner)
    (plain : plan.grouping = none) (unsorted : plan.sort = []) (valid : data.AllValid)
    (covers : data.Covers schemas spec.tables) (sorter : Sorter) :
    (plan.sources data).Perm (spec.tables.map fun t => ⟨t.aliasName, data.tableOf t⟩) ∧
    ∃ selection : List (List Nat), selection.Pairwise (List.Lex (· < ·)) ∧
      (∀ positions, positions ∈ selection ↔ plan.Selects data positions) ∧
      plan.execute sorter data =
        .ok (some ⟨plan.outputNames, selection.map (plan.outputRow data)⟩) := by
  have wf := wellFormed_of_compile ok distinct
  rw [← tables_of_compile ok] at distinct dotFree covers ⊢
  have fits : plan.Fits schemas data := ⟨wf, distinct, dotFree, valid, covers⟩
  refine ⟨fits.covered.sources_perm, plan.selection data, ?_, fun _ => Plan.mem_selection, ?_⟩
  · exact (pairwise_choices _).filter _
  · rw [Plan.execute, fits.projected_eq_selected inner plain, ok_bind, unsorted]
    rfl

def triangle : Spec where
  name := "triangle"
  tables := [⟨"x", "tx", .source, none⟩, ⟨"y", "ty", .source, none⟩, ⟨"z", "tz", .source, none⟩]
  joins := [⟨"x", "y", "r", "r", none⟩, ⟨"y", "z", "s", "s", none⟩, ⟨"x", "z", "p", "q", none⟩]
  select := [⟨"x.p", none⟩]
  filter := []
  group := []
  having := []
  sort := []

def triangleSchemas : Schemas := [("tx", ["r", "p"]), ("ty", ["r", "s"]), ("tz", ["s", "q"])]

/-- Data for the triangle, with one cell each for the ends of its last two edges. -/
def triangleData (s s' p q : Cell) : Datasets := [
  ("tx", ⟨["r", "p"], [[.int 0, p]]⟩),
  ("ty", ⟨["r", "s"], [[.int 0, s]]⟩),
  ("tz", ⟨["s", "q"], [[s', q]]⟩)]

theorem triangle_distinct : (triangle.tables.map TableDecl.aliasName).Nodup := by
  decide

theorem triangle_dotFree : ∀ t ∈ triangle.tables, '.' ∉ t.aliasName.toList := by
  decide

theorem triangle_valid (s s' p q : Cell) : (triangleData s s' p q).AllValid :=
  Datasets.allValid_of_forall (List.forall_mem_cons.2 ⟨rfl, List.forall_mem_cons.2
    ⟨rfl, List.forall_mem_cons.2 ⟨rfl, by simp⟩⟩⟩)

theorem triangle_covers (s s' p q : Cell) :
    (triangleData s s' p q).Covers triangleSchemas triangle.tables := by
  refine List.forall_mem_cons.2 ⟨⟨_, rfl, fun columns listed => ?_⟩,
    List.forall_mem_cons.2 ⟨⟨_, rfl, fun columns listed => ?_⟩,
      List.forall_mem_cons.2 ⟨⟨_, rfl, fun columns listed => ?_⟩, by simp⟩⟩⟩ <;>
    cases listed <;> exact fun _ mem => mem

theorem execute_inner_triangle : ∃ plan, triangle.compile triangleSchemas .inner = .ok plan ∧
    ∃ selection : List (List Nat), selection.Pairwise (List.Lex (· < ·)) ∧
      (∀ positions, positions ∈ selection ↔
        plan.Selects (triangleData (.int 2) (.int 2) (.int 1) (.int 1)) positions) ∧
      plan.execute .standard (triangleData (.int 2) (.int 2) (.int 1) (.int 1)) =
        .ok (some ⟨plan.outputNames,
          selection.map (plan.outputRow (triangleData (.int 2) (.int 2) (.int 1) (.int 1)))⟩) := by
  have compiles : (triangle.compile triangleSchemas .inner).toOption.any (fun plan =>
      (plan.joins.all fun e => decide (e.kind = .inner)) && decide (plan.grouping = none) &&
        decide (plan.sort = [])) = true := by decide +kernel
  obtain ⟨plan, made, facts⟩ := exists_of_any_toOption compiles
  simp only [Bool.and_eq_true, List.all_eq_true, decide_eq_true_eq] at facts
  obtain ⟨⟨inner, plain⟩, unsorted⟩ := facts
  exact ⟨plan, made, (execute_inner triangle_distinct triangle_dotFree made inner plain unsorted
    (triangle_valid _ _ _ _) (triangle_covers _ _ _ _) .standard).2⟩

end Spec

end TablePlan
