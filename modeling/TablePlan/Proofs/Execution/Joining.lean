import TablePlan.Proofs.Execution.Sources
import TablePlan.Proofs.Plan.Compilation

/-!
The joins of a plan. Over data that its schemas describe all joins of a well-formed plan succeed,
and their columns are those of all sources; whenever they succeed, every key that they use is a
column of a declared table.
-/

namespace TablePlan

open Success

namespace Inputs

def joinStep (table : String → Table) (joined : Table) (e : JoinEdge) : Table :=
  ⟨joined.columns ++ (table e.rightAlias).columns,
    Table.joinRows joined (table e.rightAlias) e.leftKey.text e.rightKey.text e.kind⟩

theorem columns_foldl_joinStep (table : String → Table) (joined : Table)
    (edges : List JoinEdge) : (edges.foldl (joinStep table) joined).columns =
      joined.columns ++ edges.flatMap fun e => (table e.rightAlias).columns := by
  induction edges generalizing joined with
  | nil => simp
  | cons e edges ih => rw [List.foldl_cons, ih, joinStep, List.flatMap_cons, List.append_assoc]

def without (inputs : Inputs) (aliasName : String) : Inputs :=
  inputs.filter fun entry => entry.1 != aliasName

theorem find?_without {inputs : Inputs} {a b : String} {t : Table} :
    (inputs.without a).find? b = some t ↔ b ≠ a ∧ inputs.find? b = some t := by
  rw [without, Named.find?_filter_ne]
  split_ifs with same <;> simp [same]

/-- Joins that find their tables and their keys, the tables given by alias. -/
structure Ready (table : String → Table) (inputs : Inputs) (joined : Table)
    (edges : List JoinEdge) : Prop where
  valid : joined.Valid
  found : ∀ e ∈ edges, inputs.find? e.rightAlias = some (table e.rightAlias)
  valid_right : ∀ e ∈ edges, (table e.rightAlias).Valid
  once : (edges.map JoinEdge.rightAlias).Nodup
  left_keys : ∀ k e, edges[k]? = some e → e.leftKey.text ∈ joined.columns ++
    (edges.take k).flatMap fun e => (table e.rightAlias).columns
  right_keys : ∀ e ∈ edges, e.rightKey.text ∈ (table e.rightAlias).columns

namespace Ready

variable {table : String → Table} {inputs : Inputs} {joined : Table} {e : JoinEdge}
  {edges : List JoinEdge}

section Step

variable (ready : Ready table inputs joined (e :: edges))

include ready

theorem joinAll_cons : inputs.joinAll joined (e :: edges) =
    Step.join.run (joined.join (table e.rightAlias) e.leftKey.text e.rightKey.text e.kind) >>=
      fun next => (inputs.without e.rightAlias).joinAll next edges := by
  rw [joinAll, take_eq_ok.2 ⟨ready.found e List.mem_cons_self, rfl⟩]
  rfl

theorem first_key : e.leftKey.text ∈ joined.columns := by
  simpa using ready.left_keys 0 e rfl

variable (distinct : (joined.columns ++ (table e.rightAlias).columns).Nodup)

include distinct

theorem join_eq : joined.join (table e.rightAlias) e.leftKey.text e.rightKey.text e.kind =
    .ok (joinStep table joined e) :=
  Table.join_eq_ok.2 ⟨ready.valid, ready.valid_right e List.mem_cons_self, ready.first_key,
    ready.right_keys e List.mem_cons_self, distinct, rfl⟩

theorem tail : Ready table (inputs.without e.rightAlias) (joinStep table joined e) edges where
  valid := ⟨distinct, fun _ mem => Table.length_of_mem_joinRows ready.valid
    (ready.valid_right e List.mem_cons_self) mem⟩
  found d mem := by
    have once := (List.nodup_cons.1 ready.once).1
    have differ : d.rightAlias ≠ e.rightAlias := fun same => once (List.mem_map.2 ⟨d, mem, same⟩)
    exact find?_without.2 ⟨differ, ready.found d (List.mem_cons_of_mem _ mem)⟩
  valid_right d mem := ready.valid_right d (List.mem_cons_of_mem _ mem)
  once := (List.nodup_cons.1 ready.once).2
  left_keys k d at_k := by
    have key := ready.left_keys (k + 1) d at_k
    rwa [List.take_succ_cons, List.flatMap_cons, ← List.append_assoc] at key
  right_keys d mem := ready.right_keys d (List.mem_cons_of_mem _ mem)

end Step

theorem joinAll_eq_foldl (ready : Ready table inputs joined edges)
    (columns : (joined.columns ++ edges.flatMap fun e => (table e.rightAlias).columns).Nodup) :
    inputs.joinAll joined edges = .ok (edges.foldl (joinStep table) joined) ∧
      (edges.foldl (joinStep table) joined).Valid := by
  induction edges generalizing inputs joined with
  | nil => exact ⟨rfl, ready.valid⟩
  | cons e edges ih =>
    rw [List.flatMap_cons, ← List.append_assoc] at columns
    have distinct := (List.nodup_append.1 columns).1
    obtain ⟨rest, valid⟩ := ih (ready.tail distinct) columns
    refine ⟨?_, valid⟩
    rw [ready.joinAll_cons, ready.join_eq distinct]
    exact rest

theorem joinAll_eq_duplicate (ready : Ready table inputs joined edges)
    (repeated : ¬ (joined.columns ++ edges.flatMap fun e => (table e.rightAlias).columns).Nodup) :
    ∃ name, inputs.joinAll joined edges =
      .error (.stepFailed .join (.table (.duplicateColumn name))) := by
  induction edges generalizing inputs joined with
  | nil =>
    rw [List.flatMap_nil, List.append_nil] at repeated
    exact absurd ready.valid.distinct repeated
  | cons e edges ih =>
    rw [List.flatMap_cons, ← List.append_assoc] at repeated
    rw [ready.joinAll_cons]
    by_cases distinct : (joined.columns ++ (table e.rightAlias).columns).Nodup
    · rw [ready.join_eq distinct]
      exact ih (ready.tail distinct) repeated
    · obtain ⟨name, failed⟩ := Table.join_eq_duplicate ready.valid
        (ready.valid_right e List.mem_cons_self) ready.first_key
        (ready.right_keys e List.mem_cons_self) distinct e.kind
      rw [failed]
      exact ⟨name, rfl⟩

theorem foldl_related {related : Table → Table → Prop} {table' : String → Table}
    {inputs' : Inputs} {joined' : Table} (ready : Ready table inputs joined edges)
    (ready' : Ready table' inputs' joined' edges)
    (columns : (joined.columns ++ edges.flatMap fun e => (table e.rightAlias).columns).Nodup)
    (columns' : (joined'.columns ++ edges.flatMap fun e => (table' e.rightAlias).columns).Nodup)
    (step : ∀ e ∈ edges, ∀ t t' : Table, related t' t → t.Valid → t'.Valid →
      e.leftKey.text ∈ t.columns → (t'.columns ++ (table' e.rightAlias).columns).Nodup →
      related (joinStep table' t' e) (joinStep table t e)) (start : related joined' joined) :
    related (edges.foldl (joinStep table') joined') (edges.foldl (joinStep table) joined) := by
  induction edges generalizing inputs inputs' joined joined' with
  | nil => exact start
  | cons e edges ih =>
    rw [List.flatMap_cons, ← List.append_assoc] at columns columns'
    rw [List.forall_mem_cons] at step
    have distinct := (List.nodup_append.1 columns).1
    have distinct' := (List.nodup_append.1 columns').1
    refine ih (ready.tail distinct) (ready'.tail distinct') columns columns' step.2 ?_
    exact step.1 joined joined' start ready.valid ready'.valid ready.first_key distinct'

end Ready

theorem of_joinAll_eq_ok {inputs : Inputs} {joined t : Table} {edges : List JoinEdge}
    (ok : inputs.joinAll joined edges = .ok t) : joined.columns ⊆ t.columns ∧
      (∀ e ∈ edges, e.leftKey.text ∈ t.columns ∧ e.rightKey.text ∈ t.columns) ∧
      ∀ name ∈ t.columns, name ∈ joined.columns ∨
        ∃ a right, inputs.find? a = some right ∧ name ∈ right.columns := by
  induction edges generalizing inputs joined with
  | nil =>
    cases ok
    exact ⟨fun _ mem => mem, by simp, fun _ mem => .inl mem⟩
  | cons e edges ih =>
    rw [joinAll, bind_eq_ok] at ok
    obtain ⟨⟨right, rest⟩, taken, ok⟩ := ok
    obtain ⟨next, made, ok⟩ := bind_eq_ok.1 ok
    obtain ⟨found, rfl⟩ := take_eq_ok.1 taken
    obtain ⟨_, _, left_key, right_key, _, rfl⟩ := Table.join_eq_ok.1 (Step.run_eq_ok.1 made)
    obtain ⟨kept, keys, sources⟩ := ih ok
    refine ⟨fun name mem => kept (List.mem_append_left _ mem), ?_, fun name mem => ?_⟩
    · refine List.forall_mem_cons.2 ⟨⟨?_, ?_⟩, keys⟩
      · exact kept (List.mem_append_left _ left_key)
      · exact kept (List.mem_append_right _ right_key)
    · obtain old | ⟨a, other, found', mem⟩ := sources name mem
      · exact (List.mem_append.1 old).imp_right fun mem => ⟨_, right, found, mem⟩
      · exact .inr ⟨a, other, (find?_without.1 found').2, mem⟩

end Inputs

namespace Plan

/-- The tables of a plan in the order of the joins. -/
def sources (plan : Plan) (data : Datasets) : List Source :=
  plan.scanned.map (plan.source data)

/-- The joined rows of a plan whose joins all succeed. -/
def joinedTable (plan : Plan) (data : Datasets) : Table :=
  plan.joins.foldl (Inputs.joinStep fun a => (plan.source data a).scan)
    (plan.source data plan.root).scan

structure Covered (plan : Plan) (schemas : Schemas) (data : Datasets) : Prop where
  wellFormed : plan.WellFormed schemas
  distinct : (plan.tables.map TableDecl.aliasName).Nodup
  valid : data.AllValid
  covers : data.Covers schemas plan.tables

/-- A well-formed plan over plain aliases and data that its schemas describe. -/
structure Fits (plan : Plan) (schemas : Schemas) (data : Datasets) : Prop where
  wellFormed : plan.WellFormed schemas
  distinct : (plan.tables.map TableDecl.aliasName).Nodup
  dotFree : ∀ t ∈ plan.tables, '.' ∉ t.aliasName.toList
  valid : data.AllValid
  covers : data.Covers schemas plan.tables

theorem Fits.covered {plan : Plan} {schemas : Schemas} {data : Datasets}
    (fits : plan.Fits schemas data) : plan.Covered schemas data :=
  ⟨fits.wellFormed, fits.distinct, fits.valid, fits.covers⟩

theorem columns_joinedTable (plan : Plan) (data : Datasets) :
    (plan.joinedTable data).columns = columnsOf (plan.sources data) := by
  rw [joinedTable, Inputs.columns_foldl_joinStep, sources, scanned, columnsOf, List.map_cons,
    List.flatMap_cons, List.map_map, List.flatMap_map]
  rfl

theorem of_joined_eq_ok {plan : Plan} {data : Datasets} {t : Table}
    (ok : plan.joined data = .ok t) :
    (∀ d ∈ plan.tables, ∃ table, data.find? d.physicalName = some table) ∧
      (∀ e ∈ plan.joins, e.leftKey.text ∈ t.columns ∧ e.rightKey.text ∈ t.columns) ∧
      ∀ name ∈ t.columns, ∃ d ∈ plan.tables, ∃ c ∈ (data.tableOf d).columns,
        (ColumnRef.qualified d.aliasName c).text = name := by
  obtain ⟨inputs, made, ok⟩ := bind_eq_ok.1 ok
  obtain ⟨present, rfl⟩ := Inputs.ofTables_eq_ok.1 made
  obtain ⟨⟨root, rest⟩, taken, ok⟩ := bind_eq_ok.1 ok
  obtain ⟨found, rfl⟩ := Inputs.take_eq_ok.1 taken
  obtain ⟨_, keys, origins⟩ := Inputs.of_joinAll_eq_ok ok
  have of_input {a : String} {table : Table} {name : String}
      (found : (Inputs.declared data plan.tables).find? a = some table)
      (mem : name ∈ table.columns) : ∃ d ∈ plan.tables, ∃ c ∈ (data.tableOf d).columns,
        (ColumnRef.qualified d.aliasName c).text = name := by
    obtain ⟨d, mem_d, rfl, rfl⟩ := Inputs.exists_of_find?_declared found
    exact ⟨d, mem_d, List.mem_map.1 mem⟩
  refine ⟨fun d mem => (present d mem).imp fun _ found => found.1, keys, fun name mem => ?_⟩
  obtain mem | ⟨a, right, found', mem⟩ := origins name mem
  · exact of_input found mem
  · exact of_input (Inputs.find?_without.1 found').2 mem

namespace Covered

variable {plan : Plan} {schemas : Schemas} {data : Datasets}
  (covered : plan.Covered schemas data)

include covered

theorem exists_of_mem_scanned {a : String} (mem : a ∈ plan.scanned) :
    ∃ t ∈ plan.tables, t.aliasName = a ∧ plan.source data a = ⟨a, data.tableOf t⟩ ∧
      data.find? t.physicalName = some (data.tableOf t) := by
  obtain ⟨t, mem_t, rfl⟩ := List.mem_map.1 (covered.wellFormed.scanned.subset mem)
  obtain ⟨table, found, _⟩ := covered.covers t mem_t
  exact ⟨t, mem_t, rfl, source_of_mem covered.distinct mem_t,
    by rw [found, Datasets.tableOf_eq found]⟩

theorem valid_source {a : String} (mem : a ∈ plan.scanned) :
    (plan.source data a).table.Valid := by
  obtain ⟨t, _, _, same, found⟩ := covered.exists_of_mem_scanned mem
  rw [same]
  exact covered.valid _ _ found

theorem column_mem_of_declared {ref : ColumnRef} (declared : ref.Declared schemas plan.tables)
    {a : String} (named : ref.aliasName = some a) :
    a ∈ plan.scanned ∧ ref.column ∈ (plan.source data a).table.columns := by
  obtain ⟨t, mem, same, columns, listed, mem_c⟩ := declared
  rw [named, Option.some.injEq] at same
  subst same
  obtain ⟨table, found, holds⟩ := covered.covers t mem
  refine ⟨covered.wellFormed.scanned.symm.subset (List.mem_map_of_mem mem), ?_⟩
  rw [source_of_mem covered.distinct mem, Datasets.tableOf_eq found]
  exact holds columns listed _ mem_c

theorem text_mem_scan {ref : ColumnRef} (declared : ref.Declared schemas plan.tables) {a : String}
    (named : ref.aliasName = some a) : ref.text ∈ (plan.source data a).scan.columns := by
  have same : ref = .qualified a ref.column := by rw [ColumnRef.qualified, ← named]
  rw [same]
  exact List.mem_map_of_mem (covered.column_mem_of_declared declared named).2

theorem text_mem_of_declared {ref : ColumnRef} (declared : ref.Declared schemas plan.tables) :
    ref.text ∈ columnsOf (plan.sources data) := by
  have ⟨t, _, named, _⟩ := declared
  have scanned := (covered.column_mem_of_declared declared named).1
  exact List.mem_flatMap.2
    ⟨_, List.mem_map_of_mem scanned, covered.text_mem_scan declared named⟩

theorem left_key_mem (k : Nat) (e : JoinEdge) (at_k : plan.joins[k]? = some e) :
    e.leftKey.text ∈ (plan.source data plan.root).scan.columns ++
      (plan.joins.take k).flatMap fun e => (plan.source data e.rightAlias).scan.columns := by
  have bound := covered.wellFormed.joins e (List.mem_of_getElem? at_k)
  have key := covered.text_mem_scan bound.left_declared bound.left
  have reached := covered.wellFormed.reaches k e at_k
  rw [scanned, List.take_succ_cons, ← List.map_take, List.mem_cons] at reached
  obtain root | joined := reached
  · exact List.mem_append_left _ (root ▸ key)
  · obtain ⟨d, mem, same⟩ := List.mem_map.1 joined
    exact List.mem_append_right _ (List.mem_flatMap.2 ⟨d, mem, same ▸ key⟩)

theorem right_key_mem (e : JoinEdge) (mem : e ∈ plan.joins) :
    e.rightKey.text ∈ (plan.source data e.rightAlias).scan.columns :=
  have bound := covered.wellFormed.joins e mem
  covered.text_mem_scan bound.right_declared bound.right

theorem find?_inputs {a : String} (mem : a ∈ plan.scanned) :
    (Inputs.declared data plan.tables).find? a = some (plan.source data a).scan := by
  obtain ⟨t, mem_t, rfl, same, _⟩ := covered.exists_of_mem_scanned mem
  rw [Inputs.find?_declared covered.distinct mem_t, same, Source.scan]

theorem sources_perm : (plan.sources data).Perm
    (plan.tables.map fun t => ⟨t.aliasName, data.tableOf t⟩) := by
  have same : plan.tables.map (fun t => (⟨t.aliasName, data.tableOf t⟩ : Source)) =
      (plan.tables.map TableDecl.aliasName).map (plan.source data) := by
    rw [List.map_map]
    exact List.map_congr_left fun t mem => (source_of_mem covered.distinct mem).symm
  rw [same]
  exact covered.wellFormed.scanned.map _

theorem columns_perm : (columnsOf (plan.sources data)).Perm
    (columnsOf (plan.tables.map fun t => ⟨t.aliasName, data.tableOf t⟩)) :=
  covered.sources_perm.flatMap_right _

theorem joined_eq_joinAll : plan.joined data =
    ((Inputs.declared data plan.tables).without plan.root).joinAll
      (plan.source data plan.root).scan plan.joins := by
  have inputs_ok : Inputs.ofTables data plan.tables = .ok (.declared data plan.tables) := by
    refine Inputs.ofTables_eq_ok.2 ⟨fun t mem => ?_, rfl⟩
    obtain ⟨table, found, _⟩ := covered.covers t mem
    exact ⟨table, found, covered.valid _ _ found⟩
  have root := covered.find?_inputs (a := plan.root) List.mem_cons_self
  unfold Plan.joined
  rw [inputs_ok]
  change Inputs.take _ _ >>= _ = _
  rw [Inputs.take_eq_ok.2 ⟨root, rfl⟩]
  rfl

theorem ready : Inputs.Ready (fun a => (plan.source data a).scan)
    ((Inputs.declared data plan.tables).without plan.root)
    (plan.source data plan.root).scan plan.joins := by
  have right_mem {e : JoinEdge} (mem : e ∈ plan.joins) : e.rightAlias ∈ plan.scanned :=
    List.mem_cons_of_mem _ (List.mem_map_of_mem mem)
  have valid_scan {a : String} (mem : a ∈ plan.scanned) : (plan.source data a).scan.Valid :=
    Table.valid_qualified (covered.valid_source mem) a
  have once := covered.wellFormed.scanned.nodup_iff.2 covered.distinct
  rw [scanned, List.nodup_cons] at once
  exact {
    valid := valid_scan List.mem_cons_self
    found := by
      intro e mem
      have differ : e.rightAlias ≠ plan.root := fun same =>
        once.1 (List.mem_map.2 ⟨e, mem, same⟩)
      exact Inputs.find?_without.2 ⟨differ, covered.find?_inputs (right_mem mem)⟩
    valid_right := fun e mem => valid_scan (right_mem mem)
    once := once.2
    left_keys := covered.left_key_mem
    right_keys := covered.right_key_mem }

theorem joined_eq (columns : (columnsOf (plan.sources data)).Nodup) :
    plan.joined data = .ok (plan.joinedTable data) ∧ (plan.joinedTable data).Valid := by
  rw [← columns_joinedTable, joinedTable, Inputs.columns_foldl_joinStep] at columns
  rw [covered.joined_eq_joinAll]
  exact covered.ready.joinAll_eq_foldl columns

theorem joined_eq_duplicate (repeated : ¬ (columnsOf (plan.sources data)).Nodup) :
    ∃ name, plan.joined data = .error (.stepFailed .join (.table (.duplicateColumn name))) := by
  rw [← columns_joinedTable, joinedTable, Inputs.columns_foldl_joinStep] at repeated
  rw [covered.joined_eq_joinAll]
  exact covered.ready.joinAll_eq_duplicate repeated

end Covered

namespace Fits

variable {plan : Plan} {schemas : Schemas} {data : Datasets} (fits : plan.Fits schemas data)

include fits

theorem plain : Plain (plan.sources data) where
  distinct := by
    rw [sources, List.map_map]
    exact (List.map_id plan.scanned).symm ▸ fits.wellFormed.scanned.nodup_iff.2 fits.distinct
  dotFree := by
    refine List.forall_mem_map.2 fun a mem => ?_
    obtain ⟨t, mem_t, rfl, _⟩ := fits.covered.exists_of_mem_scanned mem
    exact fits.dotFree t mem_t
  valid := List.forall_mem_map.2 fun a mem => fits.covered.valid_source mem

theorem joined_eq : plan.joined data = .ok (plan.joinedTable data) ∧
    (plan.joinedTable data).Valid :=
  fits.covered.joined_eq (nodup_columnsOf fits.plain)

end Fits

end Plan

end TablePlan
