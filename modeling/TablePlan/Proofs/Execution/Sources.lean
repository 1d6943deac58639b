import TablePlan.Proofs.Declarations
import TablePlan.Proofs.Table.Extension
import TablePlan.Schemas

/-!
The tables that a plan scans, under their aliases and in the order of the joins. Under distinct
aliases without dots their qualified columns are distinct, and a reference names a column of the
table of its alias.
-/

namespace TablePlan

open Success

/-- A table under the alias by which a plan names it. -/
structure Source where
  aliasName : String
  table : Table

namespace Source

def scan (s : Source) : Table :=
  s.table.qualified s.aliasName

end Source

def columnsOf (sources : List Source) : List String :=
  sources.flatMap fun s => s.scan.columns

theorem mem_columnsOf {sources : List Source} {name : String} :
    name ∈ columnsOf sources ↔
      ∃ s ∈ sources, ∃ c ∈ s.table.columns, (ColumnRef.qualified s.aliasName c).text = name := by
  simp [columnsOf, Source.scan, Table.qualified]

theorem columnsOf_append (sources more : List Source) :
    columnsOf (sources ++ more) = columnsOf sources ++ columnsOf more :=
  List.flatMap_append

theorem columnsOf_concat (sources : List Source) (s : Source) :
    columnsOf (sources ++ [s]) = columnsOf sources ++ s.scan.columns := by
  simp [columnsOf]

structure Plain (sources : List Source) : Prop where
  distinct : (sources.map Source.aliasName).Nodup
  dotFree : ∀ s ∈ sources, '.' ∉ s.aliasName.toList
  valid : ∀ s ∈ sources, s.table.Valid

theorem Plain.sublist {sources more : List Source} (plain : Plain more)
    (sub : sources.Sublist more) : Plain sources where
  distinct := plain.distinct.sublist (sub.map _)
  dotFree s mem := plain.dotFree s (sub.subset mem)
  valid s mem := plain.valid s (sub.subset mem)

/-- What the names of columns need of sources: whatever their rows are, the aliases are distinct
and without dots, and no table repeats a column. -/
structure Separate (sources : List Source) : Prop where
  distinct : (sources.map Source.aliasName).Nodup
  dotFree : ∀ s ∈ sources, '.' ∉ s.aliasName.toList
  columns : ∀ s ∈ sources, s.table.columns.Nodup

theorem Plain.separate {sources : List Source} (plain : Plain sources) : Separate sources :=
  ⟨plain.distinct, plain.dotFree, fun s mem => (plain.valid s mem).distinct⟩

namespace Separate

variable {sources : List Source} (separate : Separate sources)

include separate

theorem text_mem_columnsOf {ref : ColumnRef} {s : Source} (mem : s ∈ sources)
    (named : ref.aliasName = some s.aliasName) :
    ref.text ∈ columnsOf sources ↔ ref.column ∈ s.table.columns := by
  have same : ref = .qualified s.aliasName ref.column := by rw [ColumnRef.qualified, ← named]
  rw [mem_columnsOf]
  constructor
  · rintro ⟨s', mem', c, mem_c, text⟩
    rw [same, ColumnRef.text_qualified_inj (separate.dotFree s' mem')
      (separate.dotFree s mem)] at text
    obtain ⟨sameAlias, rfl⟩ := text
    rwa [← List.inj_on_of_nodup_map separate.distinct mem' mem sameAlias]
  · intro mem_c
    exact ⟨s, mem, _, mem_c, congrArg ColumnRef.text same.symm⟩

theorem nodup_columnsOf : (columnsOf sources).Nodup := by
  have aliases := separate.distinct
  rw [List.Nodup, List.pairwise_map] at aliases
  refine List.nodup_flatMap.2
    ⟨fun s mem => (separate.columns s mem).map (Table.qualified_injective _),
      aliases.imp_of_mem fun {s s'} mem mem' differ name mem_s mem_s' => ?_⟩
  obtain ⟨c, _, rfl⟩ := List.mem_map.1 mem_s
  obtain ⟨d, _, text⟩ := List.mem_map.1 mem_s'
  rw [ColumnRef.text_qualified_inj (separate.dotFree s' mem') (separate.dotFree s mem)] at text
  exact differ text.1.symm

end Separate

theorem text_mem_columnsOf {sources : List Source} (plain : Plain sources) {ref : ColumnRef}
    {s : Source} (mem : s ∈ sources) (named : ref.aliasName = some s.aliasName) :
    ref.text ∈ columnsOf sources ↔ ref.column ∈ s.table.columns :=
  plain.separate.text_mem_columnsOf mem named

theorem nodup_columnsOf {sources : List Source} (plain : Plain sources) :
    (columnsOf sources).Nodup :=
  plain.separate.nodup_columnsOf

namespace Datasets

/-- The table of a declaration, empty if there is none. -/
def tableOf (data : Datasets) (t : TableDecl) : Table :=
  (data.find? t.physicalName).getD ⟨[], []⟩

def AllValid (data : Datasets) : Prop :=
  ∀ name t, data.find? name = some t → t.Valid

/-- Every declared table is at hand, with the columns that its schema lists at least. -/
def Covers (data : Datasets) (schemas : Schemas) (tables : List TableDecl) : Prop :=
  ∀ t ∈ tables, ∃ table, data.find? t.physicalName = some table ∧
    ∀ columns, schemas.find? t.physicalName = some columns → ∀ c ∈ columns, c ∈ table.columns

theorem allValid_of_forall {data : Datasets} (valid : ∀ entry ∈ data, entry.2.validate = .ok ()) :
    data.AllValid :=
  fun _ _ found => Table.validate_eq_ok_iff.1 (valid _ (Named.mem_of_find? found))

theorem tableOf_eq {data : Datasets} {t : TableDecl} {table : Table}
    (found : data.find? t.physicalName = some table) : data.tableOf t = table := by
  rw [tableOf, found, Option.getD_some]

theorem schemas_cons (name : String) (t : Table) (data : Datasets) :
    schemas ((name, t) :: data) = match t.columnNames with
      | .ok columns => (name, columns) :: schemas data
      | .error _ => schemas data := by
  simp only [schemas, List.filterMap_cons]
  cases t.columnNames <;> rfl

theorem find?_schemas {data : Datasets} (valid : data.AllValid) (name : String) :
    data.schemas.find? name = (data.find? name).map Table.columns := by
  replace valid := valid name
  induction data with
  | nil => rfl
  | cons entry data ih =>
    obtain ⟨other, t⟩ := entry
    rw [Named.find?] at valid
    rw [schemas_cons, Named.find?]
    by_cases same : other = name
    · simp only [if_pos same, Option.some.injEq, forall_eq'] at valid
      rw [Table.columnNames_eq_ok.2 ⟨valid, rfl⟩, if_pos same]
      exact if_pos same
    · rw [if_neg same] at valid ⊢
      rw [← ih valid]
      cases t.columnNames with
      | ok columns => exact if_neg same
      | error e => rfl

/-- Every table at hand has a counterpart that extends it. -/
def Extends (more data : Datasets) : Prop :=
  ∀ name t, data.find? name = some t → ∃ t', more.find? name = some t' ∧ t'.Extends t

theorem Extends.refl (data : Datasets) : data.Extends data :=
  fun _ t found => ⟨t, found, .refl t⟩

theorem extends_of_forall {more data : Datasets} (wider : ∀ entry ∈ data,
    ∃ t', more.find? entry.1 = some t' ∧ t'.Extends entry.2) : more.Extends data :=
  fun _ _ found => wider _ (Named.mem_of_find? found)

theorem Extends.covers {more data : Datasets} {tables : List TableDecl} (wider : more.Extends data)
    (valid : data.AllValid)
    (listed : ∀ t ∈ tables, ∃ columns, data.schemas.find? t.physicalName = some columns) :
    more.Covers data.schemas tables := by
  intro t mem
  obtain ⟨columns, found⟩ := listed t mem
  rw [find?_schemas valid, Option.map_eq_some_iff] at found
  obtain ⟨table, found, _⟩ := found
  obtain ⟨table', found', extends_table⟩ := wider _ _ found
  refine ⟨table', found', fun columns' stored c mem_c => ?_⟩
  rw [find?_schemas valid, found, Option.map_some, Option.some.injEq] at stored
  exact extends_table.columns (stored ▸ mem_c)

end Datasets

theorem findTable?_of_mem {tables : List TableDecl} {t : TableDecl}
    (distinct : (tables.map TableDecl.aliasName).Nodup) (mem : t ∈ tables) :
    findTable? tables t.aliasName = some t := by
  rw [findTable?_eq_head?, declaredAs_of_mem distinct mem, List.head?_cons]

namespace Plan

def source (plan : Plan) (data : Datasets) (aliasName : String) : Source :=
  ⟨aliasName, ((plan.table? aliasName).map data.tableOf).getD ⟨[], []⟩⟩

theorem source_of_mem {plan : Plan} {data : Datasets} {t : TableDecl}
    (distinct : (plan.tables.map TableDecl.aliasName).Nodup) (mem : t ∈ plan.tables) :
    plan.source data t.aliasName = ⟨t.aliasName, data.tableOf t⟩ := by
  rw [source, table?, findTable?_of_mem distinct mem, Option.map_some, Option.getD_some]

end Plan

theorem Step.run_eq_ok {α : Type} {step : Step} {result : Except TableError α} {a : α} :
    step.run result = .ok a ↔ result = .ok a :=
  mapError_eq_ok

theorem Step.run_eq_error {α : Type} {step : Step} {result : Except TableError α}
    {e : ExecutionError} :
    step.run result = .error e ↔ ∃ f, result = .error f ∧ e = .stepFailed step (.table f) := by
  cases result <;> simp [Step.run, Except.mapError, eq_comm]

namespace Inputs

def declared (data : Datasets) (tables : List TableDecl) : Inputs :=
  Named.ofList (tables.map fun t => (t.aliasName, (data.tableOf t).qualified t.aliasName))

theorem find?_declared_eq (data : Datasets) (tables : List TableDecl) (a : String) :
    (declared data tables).find? a =
      (declaredAs tables a).getLast?.map fun t => (data.tableOf t).qualified a := by
  rw [declared, find?_ofList_map]
  cases last : (declaredAs tables a).getLast? with
  | none => rfl
  | some t =>
    rw [Option.map_some, Option.map_some, (mem_declaredAs.1 (List.mem_of_getLast? last)).2]

theorem find?_declared {data : Datasets} {tables : List TableDecl} {t : TableDecl}
    (distinct : (tables.map TableDecl.aliasName).Nodup) (mem : t ∈ tables) :
    (declared data tables).find? t.aliasName = some ((data.tableOf t).qualified t.aliasName) := by
  rw [find?_declared_eq, declaredAs_of_mem distinct mem]
  rfl

theorem exists_of_find?_declared {data : Datasets} {tables : List TableDecl} {a : String}
    {table : Table} (found : (declared data tables).find? a = some table) :
    ∃ t ∈ tables, t.aliasName = a ∧ table = (data.tableOf t).qualified a := by
  rw [find?_declared_eq, Option.map_eq_some_iff] at found
  obtain ⟨t, last, rfl⟩ := found
  obtain ⟨mem, named⟩ := mem_declaredAs.1 (List.mem_of_getLast? last)
  exact ⟨t, mem, named, rfl⟩

theorem valid_of_find?_declared {data : Datasets} {tables : List TableDecl} {a : String}
    {table : Table}
    (present : ∀ t ∈ tables, ∃ table, data.find? t.physicalName = some table ∧ table.Valid)
    (found : (declared data tables).find? a = some table) : table.Valid := by
  obtain ⟨t, mem, _, rfl⟩ := exists_of_find?_declared found
  obtain ⟨table, at_hand, valid⟩ := present t mem
  refine Table.valid_qualified ?_ a
  rwa [Datasets.tableOf_eq at_hand]

def entry (data : Datasets) (t : TableDecl) : Except ExecutionError (String × Table) :=
  (data.find? t.physicalName).elim (.error (.missingDataset t.aliasName t.physicalName))
    fun table => do return (t.aliasName, ← Step.qualify.run (table.qualify t.aliasName))

theorem ofTables_eq (data : Datasets) (tables : List TableDecl) :
    ofTables data tables =
      tables.mapM (entry data) >>= fun entries => pure (Named.ofList entries) := by
  unfold ofTables
  refine congrArg (· >>= _) (congrArg (List.mapM · tables) (funext fun t => ?_))
  unfold entry
  cases data.find? t.physicalName <;> rfl

theorem entry_eq_ok {data : Datasets} {t : TableDecl} {made : String × Table} :
    entry data t = .ok made ↔
      (∃ table, data.find? t.physicalName = some table ∧ table.Valid) ∧
      made = (t.aliasName, (data.tableOf t).qualified t.aliasName) := by
  unfold entry
  cases found : data.find? t.physicalName with
  | none => simp
  | some table =>
    simp only [Option.elim_some, bind_eq_ok, Step.run_eq_ok, Table.qualify_eq_ok, pure_eq_ok,
      Option.some.injEq, Datasets.tableOf_eq found]
    constructor
    · rintro ⟨_, ⟨valid, rfl⟩, rfl⟩
      exact ⟨⟨table, rfl, valid⟩, rfl⟩
    · rintro ⟨⟨_, rfl, valid⟩, rfl⟩
      exact ⟨_, ⟨valid, rfl⟩, rfl⟩

theorem ofTables_eq_ok {data : Datasets} {tables : List TableDecl} {inputs : Inputs} :
    ofTables data tables = .ok inputs ↔
      (∀ t ∈ tables, ∃ table, data.find? t.physicalName = some table ∧ table.Valid) ∧
      inputs = declared data tables := by
  rw [ofTables_eq]
  simp only [bind_eq_ok, pure_eq_ok]
  constructor
  · rintro ⟨entries, made, rfl⟩
    have same : entries.map id = tables.map fun t =>
        (t.aliasName, (data.tableOf t).qualified t.aliasName) :=
      map_eq_map_of_mapM made fun t made' ok => (entry_eq_ok.1 ok).2
    rw [List.map_id] at same
    refine ⟨fun t mem => ?_, by rw [declared, same]⟩
    obtain ⟨made', ok⟩ := exists_mapM_eq_ok.1 ⟨entries, made⟩ t mem
    exact (entry_eq_ok.1 ok).1
  · rintro ⟨found, rfl⟩
    exact ⟨_, mapM_eq_ok_map fun t mem => entry_eq_ok.2 ⟨found t mem, rfl⟩, rfl⟩

theorem take_eq_ok {inputs rest : Inputs} {aliasName : String} {t : Table} :
    inputs.take aliasName = .ok (t, rest) ↔
      inputs.find? aliasName = some t ∧ rest = inputs.filter fun entry => entry.1 != aliasName := by
  unfold take
  split
  · rename_i found
    simp [found, eq_comm]
  · rename_i missing
    simp [missing]

end Inputs

end TablePlan
