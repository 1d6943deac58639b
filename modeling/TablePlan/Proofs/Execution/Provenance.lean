import TablePlan.Proofs.Execution.Turning
import TablePlan.Proofs.Table.Provenance

/-!
Outer joins over whole sequences of joins. Whatever the kinds of the steps, a joined row shows for
every table one of its rows or nulls. The rows of a table stay when the step that brings it keeps
its right side and all later steps keep their left side.
-/

namespace TablePlan

open Success

namespace Inputs

namespace Ready

variable {table : String → Table} {inputs : Inputs} {joined : Table} {edges : List JoinEdge}

theorem shows_foldl (ready : Ready table inputs joined edges)
    (columns : (joined.columns ++ edges.flatMap fun e => (table e.rightAlias).columns).Nodup) :
    (∀ s : Table, s.columns ⊆ joined.columns → joined.Shows s →
      (edges.foldl (joinStep table) joined).Shows s) ∧
    ∀ e ∈ edges, (edges.foldl (joinStep table) joined).Shows (table e.rightAlias) := by
  induction edges generalizing inputs joined with
  | nil => exact ⟨fun _ _ shown => shown, by simp⟩
  | cons e edges ih =>
    rw [List.flatMap_cons, ← List.append_assoc] at columns
    have distinct := (List.nodup_append.1 columns).1
    obtain ⟨earlier, later⟩ := ih (ready.tail distinct) columns
    refine ⟨fun s sub shown => ?_, List.forall_mem_cons.2 ⟨?_, later⟩⟩
    · exact earlier s (List.subset_append_of_subset_left _ sub)
        (shown.joinedWith ready.valid sub)
    · exact earlier _ (List.subset_append_right _ _)
        (Table.shows_right distinct ready.valid (ready.valid_right e List.mem_cons_self))

theorem keeps_foldl (ready : Ready table inputs joined edges)
    (columns : (joined.columns ++ edges.flatMap fun e => (table e.rightAlias).columns).Nodup) :
    (∀ s : Table, s.columns ⊆ joined.columns → joined.Keeps s →
      (∀ e ∈ edges, e.kind.keepsLeft = true) →
      (edges.foldl (joinStep table) joined).Keeps s) ∧
    ∀ k e, edges[k]? = some e → e.kind.keepsRight = true →
      (∀ d ∈ edges.drop (k + 1), d.kind.keepsLeft = true) →
      (edges.foldl (joinStep table) joined).Keeps (table e.rightAlias) := by
  induction edges generalizing inputs joined with
  | nil => exact ⟨fun _ _ keeps _ => keeps, by simp⟩
  | cons e edges ih =>
    rw [List.flatMap_cons, ← List.append_assoc] at columns
    have distinct := (List.nodup_append.1 columns).1
    obtain ⟨earlier, later⟩ := ih (ready.tail distinct) columns
    refine ⟨fun s sub keeps kept => ?_, fun k d at_k brings kept => ?_⟩
    · rw [List.forall_mem_cons] at kept
      exact earlier s (List.subset_append_of_subset_left _ sub)
        (keeps.joinedWith ready.valid sub kept.1) kept.2
    · cases k with
      | zero =>
        cases at_k
        exact earlier _ (List.subset_append_right _ _)
          (Table.keeps_right distinct ready.valid (ready.valid_right e List.mem_cons_self) brings)
          kept
      | succ k => exact later k d at_k brings kept

end Ready

end Inputs

namespace Plan

variable {plan : Plan} {schemas : Schemas} {data : Datasets} (fits : plan.Fits schemas data)

include fits

namespace Fits

theorem nodup_joined_columns : ((plan.source data plan.root).scan.columns ++
    plan.joins.flatMap fun e => (plan.source data e.rightAlias).scan.columns).Nodup := by
  have columns := nodup_columnsOf fits.plain
  rwa [← columns_joinedTable, joinedTable, Inputs.columns_foldl_joinStep] at columns

theorem shows_joinedTable {a : String} (mem : a ∈ plan.scanned) :
    (plan.joinedTable data).Shows (plan.source data a).scan := by
  have ready := fits.covered.ready
  obtain ⟨root, later⟩ := ready.shows_foldl fits.nodup_joined_columns
  obtain rfl | mem := List.mem_cons.1 mem
  · exact root _ (fun _ mem => mem) ready.valid.shows_self
  · obtain ⟨e, of_e, rfl⟩ := List.mem_map.1 mem
    exact later e of_e

theorem keeps_joinedTable_root (kept : ∀ e ∈ plan.joins, e.kind.keepsLeft = true) :
    (plan.joinedTable data).Keeps (plan.source data plan.root).scan :=
  have ready := fits.covered.ready
  (ready.keeps_foldl fits.nodup_joined_columns).1 _ (fun _ mem => mem) ready.valid.keeps_self kept

theorem keeps_joinedTable {k : Nat} {e : JoinEdge} (at_k : plan.joins[k]? = some e)
    (brings : e.kind.keepsRight = true)
    (kept : ∀ d ∈ plan.joins.drop (k + 1), d.kind.keepsLeft = true) :
    (plan.joinedTable data).Keeps (plan.source data e.rightAlias).scan :=
  (fits.covered.ready.keeps_foldl fits.nodup_joined_columns).2 k e at_k brings kept

end Fits

end Plan

namespace Spec

/-- Outer joins lose no protected row and make up none. The plan scans every declared table once;
its joins succeed, and each joined row shows under the columns of a table one row of this table or
nulls. All rows of the root are shown if every step is a left or a full join, and all rows of the
table of a step if this step is a right or a full join and every later one is left or full. -/
theorem joined_protects {spec : Spec} {schemas : Schemas} {default : JoinKind} {plan : Plan}
    {data : Datasets} (distinct : (spec.tables.map TableDecl.aliasName).Nodup)
    (dotFree : ∀ t ∈ spec.tables, '.' ∉ t.aliasName.toList)
    (ok : spec.compile schemas default = .ok plan) (valid : data.AllValid)
    (covers : data.Covers schemas spec.tables) :
    (plan.root :: plan.joins.map JoinEdge.rightAlias).Perm
      (spec.tables.map TableDecl.aliasName) ∧
    ∃ t, plan.joined data = .ok t ∧
      (∀ d ∈ spec.tables, t.Shows ((data.tableOf d).qualified d.aliasName)) ∧
      (∀ d ∈ spec.tables, d.aliasName = plan.root →
        (∀ e ∈ plan.joins, e.kind = .left ∨ e.kind = .full) →
        t.Keeps ((data.tableOf d).qualified d.aliasName)) ∧
      ∀ k e, plan.joins[k]? = some e → e.kind = .right ∨ e.kind = .full →
        (∀ later ∈ plan.joins.drop (k + 1), later.kind = .left ∨ later.kind = .full) →
        ∀ d ∈ spec.tables, d.aliasName = e.rightAlias →
          t.Keeps ((data.tableOf d).qualified d.aliasName) := by
  have wf := wellFormed_of_compile ok distinct
  rw [← tables_of_compile ok] at distinct dotFree covers ⊢
  have fits : plan.Fits schemas data := ⟨wf, distinct, dotFree, valid, covers⟩
  have scan {d : TableDecl} (mem : d ∈ plan.tables) :
      (plan.source data d.aliasName).scan = (data.tableOf d).qualified d.aliasName := by
    rw [Plan.source_of_mem distinct mem, Source.scan]
  refine ⟨wf.scanned, plan.joinedTable data, fits.joined_eq.1, fun d mem => ?_,
    fun d mem root outer => ?_, fun k e at_k brings outer d mem named => ?_⟩
  · rw [← scan mem]
    exact fits.shows_joinedTable (wf.scanned.mem_iff.2 (List.mem_map_of_mem mem))
  · rw [← scan mem, root]
    exact fits.keeps_joinedTable_root fun e mem => JoinKind.keepsLeft_iff.2 (outer e mem)
  · rw [← scan mem, named]
    exact fits.keeps_joinedTable at_k (JoinKind.keepsRight_iff.2 brings)
      fun d mem => JoinKind.keepsLeft_iff.2 (outer d mem)

theorem joined_protects_triangle : ∃ plan t,
    outerTriangle.compile triangleSchemas .inner = .ok plan ∧
    plan.joined (triangleData (.int 2) (.int 3) (.int 1) (.int 1)) = .ok t ∧
    t.Shows (Table.qualified ⟨["r", "s"], [[.int 0, .int 2]]⟩ "y") ∧
    t.Keeps (Table.qualified ⟨["r", "p"], [[.int 0, .int 1]]⟩ "x") ∧
    t.Keeps (Table.qualified ⟨["s", "q"], [[.int 3, .int 1]]⟩ "z") := by
  have distinct : (outerTriangle.tables.map TableDecl.aliasName).Nodup := triangle_distinct
  have dotFree : ∀ t ∈ outerTriangle.tables, '.' ∉ t.aliasName.toList := triangle_dotFree
  have compiles : (outerTriangle.compile triangleSchemas .inner).toOption.any (fun plan =>
      decide (plan.root = "x") && decide (plan.joins.map (fun e => (e.rightAlias, e.kind)) =
        [("y", .left), ("z", .full)])) = true := by decide +kernel
  obtain ⟨plan, made, facts⟩ := exists_of_any_toOption compiles
  rw [Bool.and_eq_true, decide_eq_true_eq, decide_eq_true_eq] at facts
  obtain ⟨root, steps⟩ := facts
  have outer : ∀ e ∈ plan.joins, e.kind = .left ∨ e.kind = .full := fun e mem => by
    have pair := List.mem_map_of_mem (f := fun e => (e.rightAlias, e.kind)) mem
    simp only [steps, List.mem_cons, Prod.mk.injEq, List.not_mem_nil, or_false] at pair
    exact pair.imp And.right And.right
  obtain ⟨e, second, named⟩ : ∃ e, plan.joins[1]? = some e ∧
      (e.rightAlias, e.kind) = ("z", .full) := by
    rw [← Option.map_eq_some_iff, ← List.getElem?_map, steps]
    rfl
  obtain ⟨right, kind⟩ := Prod.mk.injEq .. ▸ named
  obtain ⟨_, t, run, shown, kept, brought⟩ := joined_protects distinct dotFree made
    (triangle_valid (.int 2) (.int 3) (.int 1) (.int 1)) (triangle_covers _ _ _ _)
  refine ⟨plan, t, made, run, shown ⟨"y", "ty", .source, none⟩ (by decide),
    kept ⟨"x", "tx", .source, none⟩ (by decide) root.symm outer, ?_⟩
  exact brought 1 e second (.inr kind) (fun d mem => outer d (List.mem_of_mem_drop mem))
    ⟨"z", "tz", .source, none⟩ (by decide) right.symm

end Spec

end TablePlan
