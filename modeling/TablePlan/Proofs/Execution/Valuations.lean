import TablePlan.Proofs.Execution.Selection

/-!
Choices as valuations of references. In which order the sources stand does not matter for the
valuations that they have, and a plan of inner joins shows those that satisfy its edges and its
filter.
-/

namespace TablePlan

/-- The cells of one row under the alias of its source, and other cells under other aliases. -/
def Source.choose (s : Source) (i : Nat) (others : ColumnRef → Cell) (ref : ColumnRef) : Cell :=
  if ref.aliasName = some s.aliasName then (s.row i).named s.table.columns ref.column
  else others ref

theorem Source.choose_comm {s t : Source} (differ : s.aliasName ≠ t.aliasName) (i j : Nat)
    (others : ColumnRef → Cell) :
    s.choose i (t.choose j others) = t.choose j (s.choose i others) := by
  funext ref
  unfold choose
  split_ifs with first second
  · rw [first, Option.some.injEq] at second
    exact absurd second differ
  · rfl
  · rfl
  · rfl

def valuations (sources : List Source) : List (ColumnRef → Cell) :=
  (choices sources).map (cellAt sources)

theorem valuations_cons (s : Source) (sources : List Source) :
    valuations (s :: sources) = (List.range s.table.rows.length).flatMap fun i =>
      (valuations sources).map (s.choose i) := by
  rw [valuations, choices, List.map_flatMap]
  refine List.flatMap_congr fun i _ => ?_
  rw [valuations, List.map_map, List.map_map]
  rfl

theorem valuations_perm {sources sources' : List Source} (perm : sources.Perm sources')
    (distinct : (sources.map Source.aliasName).Nodup) :
    (valuations sources).Perm (valuations sources') := by
  induction perm with
  | nil => exact .refl _
  | cons s _ ih =>
    rw [List.map_cons, List.nodup_cons] at distinct
    rw [valuations_cons, valuations_cons]
    exact List.Perm.flatMap_left _ fun i _ => (ih distinct.2).map _
  | swap s t sources =>
    have differ : t.aliasName ≠ s.aliasName := by
      rw [List.map_cons, List.map_cons, List.nodup_cons, List.mem_cons, not_or] at distinct
      exact distinct.1.1
    have two (s t : Source) : valuations (s :: t :: sources) =
        (List.range s.table.rows.length).flatMap fun i =>
          (List.range t.table.rows.length).flatMap fun j =>
            (valuations sources).map fun v => s.choose i (t.choose j v) := by
      rw [valuations_cons]
      refine List.flatMap_congr fun i _ => ?_
      rw [valuations_cons, List.map_flatMap]
      refine List.flatMap_congr fun j _ => ?_
      rw [List.map_map]
      rfl
    rw [two t s, two s t]
    simp only [Source.choose_comm differ]
    exact flatMap_flatMap_perm _ _ _
  | trans first _ ih ih' =>
    exact (ih distinct).trans (ih' ((first.map Source.aliasName).nodup distinct))

theorem exists_row_of_inRange {sources : List Source} {positions : List Nat} {ref : ColumnRef}
    (distinct : (sources.map Source.aliasName).Nodup) (chosen : InRange sources positions)
    {s : Source} (mem : s ∈ sources) (named : ref.aliasName = some s.aliasName) :
    ∃ row ∈ s.table.rows, row.named s.table.columns ref.column = cellAt sources positions ref := by
  unfold InRange at chosen
  induction chosen with
  | nil => cases mem
  | @cons first i sources positions within _ ih =>
    rw [List.map_cons, List.nodup_cons] at distinct
    rw [cellAt]
    obtain rfl | mem := List.mem_cons.1 mem
    · rw [if_pos named]
      exact ⟨_, Source.row_mem within, rfl⟩
    · have differ : ref.aliasName ≠ some first.aliasName := fun same => by
        rw [named, Option.some.injEq] at same
        exact distinct.1 (same ▸ List.mem_map_of_mem mem)
      rw [if_neg differ]
      exact ih distinct.2 mem

/-- A cell stands in the column of a reference. -/
def Datasets.Shows (data : Datasets) (tables : List TableDecl) (ref : ColumnRef) (c : Cell) :
    Prop :=
  ∃ t ∈ tables, ref.aliasName = some t.aliasName ∧
    ∃ row ∈ (data.tableOf t).rows, row.named (data.tableOf t).columns ref.column = c

namespace Plan

variable {plan : Plan} {schemas : Schemas} {data : Datasets}

def accepts (plan : Plan) (v : ColumnRef → Cell) : Bool :=
  (plan.joins.all fun e => (v e.leftKey).matches (v e.rightKey)) &&
    plan.filter.all fun p => p.truthBy (Operand.valueOf v) == some true

def shown (plan : Plan) (v : ColumnRef → Cell) : Row :=
  plan.output.map fun o => o.source.toOperand.valueOf v

theorem rows_selected (plan : Plan) (data : Datasets) : (plan.selected data).rows =
    ((valuations (plan.sources data)).filter plan.accepts).map plan.shown := by
  rw [valuations, List.filter_map, List.map_map]
  rfl

namespace Fits

variable (fits : plan.Fits schemas data)

include fits

theorem shows_of_mem_valuations {v : ColumnRef → Cell} (mem : v ∈ valuations (plan.sources data))
    {ref : ColumnRef} (declared : ref.Declared schemas plan.tables) :
    data.Shows plan.tables ref (v ref) := by
  obtain ⟨positions, chosen, rfl⟩ := List.mem_map.1 mem
  obtain ⟨t, mem, named, _⟩ := declared
  have source : ⟨t.aliasName, data.tableOf t⟩ ∈ plan.sources data :=
    fits.covered.sources_perm.symm.subset (List.mem_map.2 ⟨t, mem, rfl⟩)
  exact ⟨t, mem, named,
    exists_row_of_inRange fits.plain.distinct (mem_choices.1 chosen) source named⟩

theorem projected_eq_valuations (inner : ∀ e ∈ plan.joins, e.kind = .inner)
    (plain : plan.grouping = none) : plan.projected data = .ok ⟨plan.outputNames,
      ((valuations (plan.sources data)).filter plan.accepts).map plan.shown⟩ := by
  rw [fits.projected_eq_selected inner plain, ← rows_selected]
  rfl

end Fits

end Plan

end TablePlan
