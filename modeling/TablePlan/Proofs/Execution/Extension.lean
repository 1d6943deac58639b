import TablePlan.Sorter.Standard
import TablePlan.Proofs.Execution.Outcome
import TablePlan.Proofs.Table.Extension

/-!
Plans over data with further columns. While the names of all columns stay distinct, every step of a
run shows the same cells as over the data that the plan was compiled for, and the result is the
same; a further column whose name is taken makes a join fail.
-/

namespace TablePlan

open Success

namespace Table

theorem Extends.kept {t' t : Table} (wider : t'.Extends t) {wanted : Option Predicate}
    (reads : ∀ p ∈ wanted, ∀ name ∈ p.columnNames, name ∈ t.columns) :
    (t'.kept wanted).Extends (t.kept wanted) where
  columns := wider.columns
  rows := by
    refine List.rel_filter (fun row' row carries => ?_) wider.rows
    cases wanted with
    | none => exact Iff.rfl
    | some p =>
      have same : p.truth t'.columns row' = p.truth t.columns row :=
        Predicate.truth_of_carries carries (reads p rfl)
      simp only [Option.all_some, same]

end Table

namespace Inputs

theorem extends_foldl_joinStep {table table' : String → Table} {inputs inputs' : Inputs}
    {joined joined' : Table} {edges : List JoinEdge} (ready : Ready table inputs joined edges)
    (ready' : Ready table' inputs' joined' edges)
    (columns : (joined.columns ++ edges.flatMap fun e => (table e.rightAlias).columns).Nodup)
    (columns' : (joined'.columns ++ edges.flatMap fun e => (table' e.rightAlias).columns).Nodup)
    (wider : joined'.Extends joined)
    (wider_right : ∀ e ∈ edges, (table' e.rightAlias).Extends (table e.rightAlias)) :
    (edges.foldl (joinStep table') joined').Extends (edges.foldl (joinStep table) joined) :=
  ready.foldl_related ready' columns columns' (fun e mem _ _ wider valid valid' key distinct' =>
    wider.join distinct' (wider_right e mem) valid valid' key (ready.right_keys e mem) e.kind) wider

end Inputs

namespace Plan

variable {plan : Plan} {schemas : Schemas} {data more : Datasets}

theorem columnsOf_sources (plan : Plan) (data : Datasets) : columnsOf (plan.sources data) =
    plan.scanned.flatMap fun a => (plan.source data a).scan.columns := by
  rw [columnsOf, sources, List.flatMap_map]

section Extension

variable (covered : plan.Covered schemas data) (covered' : plan.Covered schemas more)
  (wider : more.Extends data)

include covered wider

theorem source_extends {a : String} (mem : a ∈ plan.scanned) :
    (plan.source more a).scan.Extends (plan.source data a).scan := by
  obtain ⟨t, mem_t, rfl, same, found⟩ := covered.exists_of_mem_scanned mem
  obtain ⟨table', found', wider_t⟩ := wider _ _ found
  rw [same, source_of_mem covered.distinct mem_t, Datasets.tableOf_eq found']
  exact wider_t.qualified _

theorem nodup_of_extends (columns' : (columnsOf (plan.sources more)).Nodup) :
    (columnsOf (plan.sources data)).Nodup := by
  rw [columnsOf_sources, List.nodup_flatMap] at columns' ⊢
  refine ⟨fun a mem => (Table.valid_qualified (covered.valid_source mem) a).distinct,
    columns'.2.imp_of_mem fun {a b} mem mem' disjoint => ?_⟩
  have sub := (source_extends covered wider mem).columns
  have sub' := (source_extends covered wider mem').columns
  exact List.disjoint_of_subset_left sub (List.disjoint_of_subset_right sub' disjoint)

include covered'

theorem joinedTable_extends (columns' : (columnsOf (plan.sources more)).Nodup) :
    (plan.joinedTable more).Extends (plan.joinedTable data) := by
  have columns := nodup_of_extends covered wider columns'
  rw [← columns_joinedTable, joinedTable, Inputs.columns_foldl_joinStep] at columns columns'
  exact Inputs.extends_foldl_joinStep covered.ready covered'.ready columns columns'
    (source_extends covered wider List.mem_cons_self) fun e mem =>
      source_extends covered wider (List.mem_cons_of_mem _ (List.mem_map_of_mem mem))

theorem projected_eq_of_extends (columns' : (columnsOf (plan.sources more)).Nodup) :
    plan.projected more = plan.projected data := by
  have wf := covered.wellFormed
  have columns := nodup_of_extends covered wider columns'
  have kept := (joinedTable_extends covered covered' wider columns').kept covered.filter_reads
  have valid := Table.valid_kept (covered.joined_eq columns).2 plan.filter
  have valid' := Table.valid_kept (covered'.joined_eq columns').2 plan.filter
  rw [covered.projected_eq_grouped columns, covered'.projected_eq_grouped columns']
  cases grouping : plan.grouping with
  | none =>
    rw [grouped_of_none grouping, grouped_of_none grouping]
    have reads : ∀ c ∈ plan.output.map OutputColumn.renaming,
        c.source ∈ ((plan.joinedTable data).kept plan.filter).columns := by
      refine List.forall_mem_map.2 fun o mem => ?_
      obtain ⟨ref, source, declared⟩ := wf.plain_output grouping o mem
      rw [OutputColumn.renaming, source]
      exact covered.present ref declared
    change plan.project _ = plan.project _
    unfold project
    rw [kept.project_eq valid valid' reads]
  | some g =>
    have wf_g := wf.grouping g grouping
    have keys : ∀ name ∈ g.keys.map ColumnRef.text,
        name ∈ ((plan.joinedTable data).kept plan.filter).columns :=
      List.forall_mem_map.2 fun ref mem => covered.present ref (wf_g.keys ref mem)
    have arguments : ∀ call ∈ g.aggregates, ∀ ref ∈ call.argument,
        ref.text ∈ ((plan.joinedTable data).kept plan.filter).columns :=
      fun call mem ref argument => covered.present ref (wf_g.arguments call mem ref argument)
    rw [grouped_of_some grouping, grouped_of_some grouping, Grouping.run, Grouping.run,
      kept.group_eq valid valid' keys arguments]

end Extension

end Plan

namespace Spec

theorem covered_of_compile {spec : Spec} {default : JoinKind} {plan : Plan} {data more : Datasets}
    (ok : spec.compile data.schemas default = .ok plan)
    (distinct : (spec.tables.map TableDecl.aliasName).Nodup) (valid : data.AllValid)
    (valid' : more.AllValid) (wider : more.Extends data) : plan.Covered data.schemas more where
  wellFormed := wellFormed_of_compile ok distinct
  distinct := tables_of_compile ok ▸ distinct
  valid := valid'
  covers := wider.covers valid (tables_of_compile ok ▸ listed_of_compile ok)

/-- A result depends only on the columns that the plan was compiled for, as long as the names of all
columns of the declared tables stay distinct; under aliases without dots they do. Otherwise a join
fails. -/
theorem execute_of_extends {spec : Spec} {default : JoinKind} {plan : Plan} {data more : Datasets}
    (distinct : (spec.tables.map TableDecl.aliasName).Nodup)
    (ok : spec.compile data.schemas default = .ok plan) (valid : data.AllValid)
    (valid' : more.AllValid) (wider : more.Extends data) (sorter : Sorter) :
    ((columnsOf (spec.tables.map fun t => ⟨t.aliasName, more.tableOf t⟩)).Nodup →
      plan.execute sorter more = plan.execute sorter data) ∧
    (¬ (columnsOf (spec.tables.map fun t => ⟨t.aliasName, more.tableOf t⟩)).Nodup →
      ∃ name, plan.execute sorter more =
        .error (.stepFailed .join (.table (.duplicateColumn name)))) ∧
    ((∀ t ∈ spec.tables, '.' ∉ t.aliasName.toList) →
      (columnsOf (spec.tables.map fun t => ⟨t.aliasName, more.tableOf t⟩)).Nodup) := by
  have covered := covered_of_compile ok distinct valid valid (.refl data)
  have covered' := covered_of_compile ok distinct valid valid' wider
  rw [← tables_of_compile ok, ← covered'.columns_perm.nodup_iff]
  refine ⟨fun columns => ?_, fun repeated => ?_, fun dotFree => ?_⟩
  · rw [Plan.execute, Plan.execute, Plan.projected_eq_of_extends covered covered' wider columns]
  · obtain ⟨name, failed⟩ := covered'.projected_eq_duplicate repeated
    exact ⟨name, Plan.execute_eq_error failed sorter⟩
  · have fits : plan.Fits data.schemas more :=
      ⟨covered'.wellFormed, covered'.distinct, dotFree, valid', covered'.covers⟩
    exact nodup_columnsOf fits.plain

def totalsMore : Datasets := [
  ("customers", ⟨["name", "city", "id"],
    [[.text "Ann", .text "Rome", .int 1], [.text "Bob", .text "Oslo", .int 2]]⟩),
  ("orders", ⟨["customer", "state"], [[.int 1, .text "paid"], [.int 2, .text "open"]]⟩)]

theorem execute_of_extends_totals : ∃ plan, totals.compile totalsData.schemas .inner = .ok plan ∧
    plan.execute .standard totalsMore = plan.execute .standard totalsData := by
  have compiles : (totals.compile totalsData.schemas .inner).toOption.any (fun _ => true) = true :=
    by decide +kernel
  obtain ⟨plan, made, _⟩ := exists_of_any_toOption compiles
  have distinct : (totals.tables.map TableDecl.aliasName).Nodup := by decide
  have dotFree : ∀ t ∈ totals.tables, '.' ∉ t.aliasName.toList := by decide
  have valid : Datasets.AllValid totalsData := Datasets.allValid_of_forall
    (List.forall_mem_cons.2 ⟨rfl, List.forall_mem_cons.2 ⟨rfl, by simp⟩⟩)
  have valid' : Datasets.AllValid totalsMore := Datasets.allValid_of_forall
    (List.forall_mem_cons.2 ⟨rfl, List.forall_mem_cons.2 ⟨rfl, by simp⟩⟩)
  have customers : Table.Extends ⟨["name", "city", "id"],
      [[.text "Ann", .text "Rome", .int 1], [.text "Bob", .text "Oslo", .int 2]]⟩
      ⟨["id", "name"], [[.int 1, .text "Ann"], [.int 2, .text "Bob"]]⟩ :=
    ⟨by decide, .cons (List.forall_mem_cons.2 ⟨rfl, List.forall_mem_singleton.2 rfl⟩)
      (.cons (List.forall_mem_cons.2 ⟨rfl, List.forall_mem_singleton.2 rfl⟩) .nil)⟩
  have wider : Datasets.Extends totalsMore totalsData := Datasets.extends_of_forall
    (List.forall_mem_cons.2 ⟨⟨_, rfl, customers⟩, List.forall_mem_singleton.2 ⟨_, rfl, .refl _⟩⟩)
  obtain ⟨same, _, columns⟩ := execute_of_extends distinct made valid valid' wider .standard
  exact ⟨plan, made, same (columns dotFree)⟩

/-- Two tables, one alias being the other one with a dot and more. -/
def dotted : Spec where
  name := "dotted"
  tables := [⟨"a", "ta", .source, none⟩, ⟨"a.b", "tb", .source, none⟩]
  joins := [⟨"a", "a.b", "k", "k", none⟩]
  select := [⟨"c", none⟩]
  filter := []
  group := []
  having := []
  sort := []

def dottedData (columns : List String) (cells : List Cell) : Datasets := [
  ("ta", ⟨"k" :: columns, [.int 1 :: cells]⟩),
  ("tb", ⟨["k", "c"], [[.int 1, .text "x"]]⟩)]

/-- With dots in aliases a further column can take the name of another one. -/
theorem not_execute_eq_of_extends : ¬ ∀ (spec : Spec) (default : JoinKind) (plan : Plan)
    (data more : Datasets) (sorter : Sorter), (spec.tables.map TableDecl.aliasName).Nodup →
      spec.compile data.schemas default = .ok plan → data.AllValid → more.AllValid →
      more.Extends data → plan.execute sorter more = plan.execute sorter data := by
  intro independent
  have compiles : (dotted.compile (dottedData [] []).schemas .inner).toOption.any
      (fun plan => decide (plan.grouping = none)) = true := by decide +kernel
  obtain ⟨plan, made, plain⟩ := exists_of_any_toOption compiles
  have plain : plan.grouping = none := of_decide_eq_true plain
  have distinct : (dotted.tables.map TableDecl.aliasName).Nodup := by decide
  have valid : (dottedData [] []).AllValid := Datasets.allValid_of_forall
    (List.forall_mem_cons.2 ⟨rfl, List.forall_mem_cons.2 ⟨rfl, by simp⟩⟩)
  have valid' : (dottedData ["b.c"] [.null]).AllValid := Datasets.allValid_of_forall
    (List.forall_mem_cons.2 ⟨rfl, List.forall_mem_cons.2 ⟨rfl, by simp⟩⟩)
  have first : Table.Extends ⟨["k", "b.c"], [[.int 1, .null]]⟩ ⟨["k"], [[.int 1]]⟩ :=
    ⟨by decide, .cons (List.forall_mem_singleton.2 rfl) .nil⟩
  have wider : (dottedData ["b.c"] [.null]).Extends (dottedData [] []) :=
    Datasets.extends_of_forall (List.forall_mem_cons.2 ⟨⟨_, rfl, first⟩,
      List.forall_mem_singleton.2 ⟨_, rfl, .refl _⟩⟩)
  have same := independent dotted .inner plan _ _ .standard distinct made valid valid' wider
  have covered := covered_of_compile made distinct valid valid (.refl _)
  have covered' := covered_of_compile made distinct valid valid' wider
  have columns : (columnsOf (plan.sources (dottedData [] []))).Nodup := by
    rw [covered.columns_perm.nodup_iff, tables_of_compile made]
    decide
  have repeated : ¬ (columnsOf (plan.sources (dottedData ["b.c"] [.null]))).Nodup := by
    rw [covered'.columns_perm.nodup_iff, tables_of_compile made]
    decide
  obtain ⟨rows, projected⟩ := covered.exists_projected_eq_ok columns plain
  obtain ⟨name, failed⟩ := covered'.projected_eq_duplicate repeated
  have shown := Plan.ends_execute projected covered.wellFormed.sort .standard
  rw [← same, Plan.execute_eq_error failed] at shown
  cases shown

end Spec

end TablePlan
