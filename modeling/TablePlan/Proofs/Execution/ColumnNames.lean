import TablePlan.Proofs.ColumnRef
import TablePlan.Proofs.Execution.Joining
import TablePlan.Proofs.Table.NestedLoops

/-!
Columns by their engine names. Joins put the columns of their tables side by side; under distinct
aliases without dots no name repeats, whatever the columns are called, and the lookup of a qualified
name finds the column of the table of its alias.
-/

namespace TablePlan

open Success Text

theorem text_notMem_columnsOf {sources : List Source} {a : String} (c : String)
    (free : '.' ∉ a.toList) (dotFree : ∀ s ∈ sources, '.' ∉ s.aliasName.toList)
    (absent : a ∉ sources.map Source.aliasName) :
    (ColumnRef.qualified a c).text ∉ columnsOf sources := by
  rw [mem_columnsOf]
  rintro ⟨s, mem, d, _, text⟩
  rw [ColumnRef.text_qualified_inj (dotFree s mem) free] at text
  exact absent (text.1 ▸ List.mem_map_of_mem mem)

/-- Whether a table holds the columns of sources side by side, each under a name of its own by which
it is found: behind the columns of the sources before, where it stands in its own table. -/
structure Table.Locates (t : Table) (sources : List Source) : Prop where
  columns : t.columns = columnsOf sources
  distinct : t.columns.Nodup
  position : ∀ before s after, sources = before ++ s :: after → ∀ c i,
    t.indexOf (ColumnRef.qualified s.aliasName c).text = .ok i ↔
      ∃ j, s.table.indexOf c = .ok j ∧ i = (columnsOf before).length + j

namespace Separate

variable {sources : List Source} (separate : Separate sources)

include separate

theorem locates {t : Table} (columns : t.columns = columnsOf sources) : t.Locates sources where
  columns := columns
  distinct := columns ▸ separate.nodup_columnsOf
  position := by
    rintro before s after rfl c i
    have aliases := separate.distinct
    rw [List.map_append, List.map_cons, List.nodup_middle, List.nodup_cons, List.mem_append,
      not_or] at aliases
    obtain ⟨⟨not_before, not_after⟩, -⟩ := aliases
    have dotFree := List.forall_mem_append.1 separate.dotFree
    have free := dotFree.2 s List.mem_cons_self
    -- The name is in the columns of no other source, so that the lookup passes them by.
    have passes {others : List Source} (others_free : ∀ s ∈ others, '.' ∉ s.aliasName.toList)
        (absent : s.aliasName ∉ others.map Source.aliasName) :
        (columnsOf others).findIdx? (· == (ColumnRef.qualified s.aliasName c).text) = none := by
      refine List.findIdx?_eq_none_iff.2 fun name mem => beq_eq_false_iff_ne.2 fun same => ?_
      exact text_notMem_columnsOf c free others_free absent (same ▸ mem)
    have first := passes dotFree.1 not_before
    have last := passes (fun s mem => dotFree.2 s (List.mem_cons_of_mem _ mem)) not_after
    have here : s.scan.columns.findIdx? (· == (ColumnRef.qualified s.aliasName c).text) =
        s.table.columns.findIdx? (· == c) :=
      Row.findIdx?_map_injective (Table.qualified_injective s.aliasName) s.table.columns c
    have cut : columnsOf (s :: after) = s.scan.columns ++ columnsOf after := List.flatMap_cons
    rw [Table.indexOf_eq_ok, columns, columnsOf_append, cut, List.findIdx?_append, first,
      Option.none_or, List.findIdx?_append, here, last, Option.map_none, Option.or_none,
      Option.map_eq_some_iff]
    refine exists_congr fun j => and_congr Table.indexOf_eq_ok.symm ?_
    rw [eq_comm, Nat.add_comm]

theorem of_subset {some : List Source} (sub : some ⊆ sources)
    (distinct : (some.map Source.aliasName).Nodup) : Separate some :=
  ⟨distinct, fun s mem => separate.dotFree s (sub mem), fun s mem => separate.columns s (sub mem)⟩

end Separate

namespace Table

theorem qualify_eq_error_iff {t : Table} {aliasName : String} {e : TableError} :
    t.qualify aliasName = .error e ↔ t.Fault e := by
  rw [← validate_eq_error_iff]
  obtain valid | ⟨f, fault⟩ := t.valid_or_fault
  · rw [qualify_eq_ok.2 ⟨valid, rfl⟩, validate_eq_ok_iff.2 valid]
    simp
  · have failed := validate_eq_error_iff.2 fault
    have stopped : t.qualify aliasName = .error f := by
      rw [qualify, columnNames, failed]
      rfl
    rw [stopped, failed]
    simp

end Table

namespace Plan

variable {plan : Plan} {data : Datasets}

def declaredSources (plan : Plan) (data : Datasets) : List Source :=
  plan.tables.map fun d => ⟨d.aliasName, data.tableOf d⟩

theorem map_declaredSources : (plan.declaredSources data).map Source.aliasName =
    plan.tables.map TableDecl.aliasName := by
  simp [declaredSources]

/-- What stops the joins of tables whose columns keep apart. A repeated column is not among it. -/
inductive JoiningFault : ExecutionError → Prop
  | missing {aliasName tableName} : JoiningFault (.missingDataset aliasName tableName)
  | misfit {row found expected} :
    JoiningFault (.stepFailed .qualify (.table (.rowWidth row found expected)))
  | unavailable {aliasName} : JoiningFault (.stepFailed .join (.unavailableAlias aliasName))
  | unknown {name} : JoiningFault (.stepFailed .join (.table (.unknownColumn name)))

/-- A run of joins underway: the tables of some aliases are joined, and what waits are declared
tables under other aliases. -/
structure Underway (plan : Plan) (data : Datasets) (aliases : List String) (inputs : Inputs)
    (joined : Table) : Prop where
  valid : joined.Valid
  columns : joined.columns = columnsOf (aliases.map (plan.source data))
  declared : aliases ⊆ plan.tables.map TableDecl.aliasName
  once : aliases.Nodup
  waiting : ∀ a t, inputs.find? a = some t → a ∉ aliases ∧
    a ∈ plan.tables.map TableDecl.aliasName ∧ t.Valid ∧ t = (plan.source data a).scan

section Joins

variable (separate : Separate (plan.declaredSources data))

include separate

theorem distinct_of_separate : (plan.tables.map TableDecl.aliasName).Nodup := by
  have distinct := separate.distinct
  rwa [map_declaredSources] at distinct

theorem sources_subset {aliases : List String}
    (declared : aliases ⊆ plan.tables.map TableDecl.aliasName) :
    aliases.map (plan.source data) ⊆ plan.declaredSources data := by
  intro s mem
  obtain ⟨a, mem_a, rfl⟩ := List.mem_map.1 mem
  obtain ⟨d, mem_d, rfl⟩ := List.mem_map.1 (declared mem_a)
  rw [source_of_mem (distinct_of_separate separate) mem_d]
  exact List.mem_map_of_mem mem_d

theorem separate_sources {aliases : List String}
    (declared : aliases ⊆ plan.tables.map TableDecl.aliasName) (once : aliases.Nodup) :
    Separate (aliases.map (plan.source data)) := by
  refine separate.of_subset (sources_subset separate declared) ?_
  rw [List.map_map]
  exact (List.map_id aliases).symm ▸ once

namespace Underway

variable {aliases : List String} {inputs : Inputs} {joined : Table}
  (underway : plan.Underway data aliases inputs joined)

include underway

theorem locates : joined.Locates (aliases.map (plan.source data)) :=
  (separate_sources separate underway.declared underway.once).locates underway.columns

theorem join {a : String} {right : Table} (found : inputs.find? a = some right)
    (leftKey rightKey : String) (kind : JoinKind) :
    (∃ name, joined.join right leftKey rightKey kind = .error (.unknownColumn name)) ∨
      ∃ next, joined.join right leftKey rightKey kind = .ok next ∧
        plan.Underway data (aliases ++ [a]) (inputs.without a) next := by
  obtain ⟨fresh, declared, valid, rfl⟩ := underway.waiting a right found
  have declared : aliases ++ [a] ⊆ plan.tables.map TableDecl.aliasName :=
    List.append_subset.2 ⟨underway.declared, by simpa using declared⟩
  have once : (aliases ++ [a]).Nodup :=
    List.nodup_append_comm.1 (List.nodup_cons.2 ⟨fresh, underway.once⟩)
  have columns : columnsOf ((aliases ++ [a]).map (plan.source data)) =
      joined.columns ++ (plan.source data a).scan.columns := by
    rw [underway.columns, List.map_append, List.map_singleton, columnsOf_concat]
  have distinct := (separate_sources separate declared once).nodup_columnsOf
  rw [columns] at distinct
  refine (Table.join_of_nodup underway.valid valid distinct leftKey rightKey kind).imp_right ?_
  rintro ⟨next, made, next_valid, next_columns⟩
  refine ⟨next, made, next_valid, next_columns.trans columns.symm, declared, once, ?_⟩
  intro b t waits
  obtain ⟨other, waits⟩ := Inputs.find?_without.1 waits
  obtain ⟨absent, waiting⟩ := underway.waiting b t waits
  exact ⟨by simp [absent, other], waiting⟩

theorem joinAll (edges : List JoinEdge) :
    (∃ e, inputs.joinAll joined edges = .error e ∧ JoiningFault e) ∨
      ∃ t rest, inputs.joinAll joined edges = .ok t ∧
        plan.Underway data (aliases ++ edges.map JoinEdge.rightAlias) rest t := by
  induction edges generalizing aliases inputs joined with
  | nil => exact .inr ⟨joined, inputs, rfl, by simpa using underway⟩
  | cons e edges ih =>
    cases found : inputs.find? e.rightAlias with
    | none =>
      have missing : inputs.joinAll joined (e :: edges) =
          .error (.stepFailed .join (.unavailableAlias e.rightAlias)) := by
        rw [Inputs.joinAll, Inputs.take, found]
        rfl
      exact .inl ⟨_, missing, .unavailable⟩
    | some right =>
      have next_step : inputs.joinAll joined (e :: edges) =
          Step.join.run (joined.join right e.leftKey.text e.rightKey.text e.kind) >>=
            fun next => (inputs.without e.rightAlias).joinAll next edges := by
        rw [Inputs.joinAll, Inputs.take_eq_ok.2 ⟨found, rfl⟩]
        rfl
      rw [next_step]
      obtain ⟨name, failed⟩ | ⟨next, made, later⟩ :=
        underway.join separate found e.leftKey.text e.rightKey.text e.kind
      · rw [failed]
        exact .inl ⟨_, rfl, .unknown⟩
      · rw [made, List.map_cons, List.append_cons]
        exact ih later

end Underway

theorem joiningFault_of_ofTables {e : ExecutionError}
    (failed : Inputs.ofTables data plan.tables = .error e) : JoiningFault e := by
  rw [Inputs.ofTables_eq, bind_eq_error] at failed
  obtain failed | ⟨_, _, failed⟩ := failed
  swap
  · cases failed
  obtain ⟨d, mem, failed⟩ := exists_of_mapM_eq_error failed
  unfold Inputs.entry at failed
  cases found : data.find? d.physicalName with
  | none =>
    rw [found] at failed
    cases failed
    exact .missing
  | some table =>
    rw [found, Option.elim_some, bind_eq_error] at failed
    obtain failed | ⟨_, _, failed⟩ := failed
    swap
    · cases failed
    obtain ⟨f, unqualified, rfl⟩ := Step.run_eq_error.1 failed
    have columns := separate.columns ⟨d.aliasName, data.tableOf d⟩ (List.mem_map_of_mem mem)
    rw [Datasets.tableOf_eq found] at columns
    obtain ⟨_, _, _, rfl⟩ := (Table.qualify_eq_error_iff.1 unqualified).eq_rowWidth columns
    exact .misfit

theorem underway_root {root : Table}
    (present : ∀ d ∈ plan.tables, ∃ t, data.find? d.physicalName = some t ∧ t.Valid)
    (found : (Inputs.declared data plan.tables).find? plan.root = some root) :
    plan.Underway data [plan.root] ((Inputs.declared data plan.tables).without plan.root) root := by
  have waiting (a : String) (t : Table)
      (waits : (Inputs.declared data plan.tables).find? a = some t) :
      a ∈ plan.tables.map TableDecl.aliasName ∧ t.Valid ∧ t = (plan.source data a).scan := by
    have valid := Inputs.valid_of_find?_declared present waits
    obtain ⟨d, mem, rfl, rfl⟩ := Inputs.exists_of_find?_declared waits
    refine ⟨List.mem_map_of_mem mem, valid, ?_⟩
    rw [source_of_mem (distinct_of_separate separate) mem, Source.scan]
  obtain ⟨declared, valid, rfl⟩ := waiting plan.root root found
  refine ⟨valid, by simp [columnsOf], by simpa using declared, List.nodup_singleton _, ?_⟩
  intro a t waits
  obtain ⟨other, waits⟩ := Inputs.find?_without.1 waits
  exact ⟨by simpa using other, waiting a t waits⟩

theorem joined_of_separate :
    (∃ e, plan.joined data = .error e ∧ JoiningFault e) ∨
      ∃ t, plan.joined data = .ok t ∧ plan.sources data ⊆ plan.declaredSources data ∧
        t.Locates (plan.sources data) := by
  cases loaded : Inputs.ofTables data plan.tables with
  | error e =>
    refine .inl ⟨e, ?_, joiningFault_of_ofTables separate loaded⟩
    rw [joined, loaded]
    rfl
  | ok inputs =>
    obtain ⟨present, rfl⟩ := Inputs.ofTables_eq_ok.1 loaded
    have loaded_joined : plan.joined data = (Inputs.declared data plan.tables).take plan.root >>=
        fun taken => taken.2.joinAll taken.1 plan.joins := by
      rw [joined, loaded]
      rfl
    rw [loaded_joined]
    cases found : (Inputs.declared data plan.tables).find? plan.root with
    | none =>
      rw [Inputs.take, found]
      exact .inl ⟨_, rfl, .unavailable⟩
    | some root =>
      rw [Inputs.take_eq_ok.2 ⟨found, rfl⟩, ok_bind]
      refine ((underway_root separate present found).joinAll separate plan.joins).imp_right ?_
      rintro ⟨t, _, ok, underway⟩
      exact ⟨t, ok, sources_subset separate underway.declared, underway.locates separate⟩

end Joins

end Plan

/-- Engine names never collide. Under aliases without dots the text of a qualified reference and the
label of an aggregate call tell which reference or call it is, and without an opening parenthesis in
the alias no text is a label. A text reads back as its reference exactly if the alias has no dot and
neither part has blanks at its ends. Sources under distinct aliases without dots have distinct
columns, which every table of these columns finds by their names; the joins of a plan make such a
table, and never fail for a repeated column. -/
theorem engineNames_apart :
    (∀ r s : ColumnRef, r.IsPlain → s.IsPlain → (r.text = s.text ↔ r = s)) ∧
    (∀ call other : AggregateCall, call.IsPlain → other.IsPlain →
      (call.label = other.label ↔ call = other)) ∧
    (∀ (call : AggregateCall) (a c : String), '.' ∉ a.toList → '(' ∉ a.toList →
      call.label ≠ (ColumnRef.qualified a c).text) ∧
    (∀ a c : String, ColumnRef.parse (ColumnRef.qualified a c).text = .qualified a c ↔
      '.' ∉ a.toList ∧ trim a = a ∧ trim c = c) ∧
    (∀ sources : List Source, Separate sources → (columnsOf sources).Nodup ∧
      ∀ t : Table, t.columns = columnsOf sources → t.Locates sources) ∧
    ∀ (plan : Plan) (data : Datasets), Separate (plan.declaredSources data) →
      (∀ step name,
        plan.joined data ≠ .error (.stepFailed step (.table (.duplicateColumn name)))) ∧
      ∀ t, plan.joined data = .ok t →
        plan.sources data ⊆ plan.declaredSources data ∧ t.Locates (plan.sources data) := by
  refine ⟨fun _ _ => ColumnRef.text_inj, fun _ _ => AggregateCall.label_inj,
    fun call a c free closed => call.label_ne_text ⟨free, closed⟩, fun a c => ?_,
    fun sources separate => ⟨separate.nodup_columnsOf, fun _ => separate.locates⟩,
    fun plan data separate => ?_⟩
  · exact ⟨ColumnRef.of_parse_text_qualified,
      fun ⟨free, trimmed⟩ => ColumnRef.parse_text_qualified free trimmed⟩
  · obtain ⟨e, failed, fault⟩ | ⟨t, ok, located⟩ := Plan.joined_of_separate separate
    · rw [failed]
      refine ⟨fun step name same => ?_, nofun⟩
      injection same with same
      rw [same] at fault
      cases fault
    · rw [ok]
      refine ⟨nofun, fun t' same => ?_⟩
      injection same with same
      exact same ▸ located

def crossed : Plan where
  name := "crossed"
  root := "a"
  tables := [⟨"a", "ta", .source, none⟩, ⟨"b", "tb", .source, none⟩]
  joins := [⟨"a", "b", .qualified "a" "b.c", .qualified "b" "c", .inner⟩]
  filter := none
  grouping := none
  having := none
  output := []
  sort := []

def crossedLeft : Table := ⟨["c)", "b.c"], [[.int 1, .int 2]]⟩

def crossedRight : Table := ⟨["count(*)", "c"], [[.int 3, .int 2]]⟩

def crossedData : Datasets := [("ta", crossedLeft), ("tb", crossedRight)]

theorem exists_crossed_joined : ∃ t, crossed.joined crossedData = .ok t := by
  have valid : crossedLeft.Valid := Table.validate_eq_ok_iff.1 rfl
  have valid' : crossedRight.Valid := Table.validate_eq_ok_iff.1 rfl
  have present : ∀ d ∈ crossed.tables,
      ∃ t, crossedData.find? d.physicalName = some t ∧ t.Valid :=
    List.forall_mem_cons.2 ⟨⟨_, rfl, valid⟩, List.forall_mem_singleton.2 ⟨_, rfl, valid'⟩⟩
  have join : (crossedLeft.qualified "a").join (crossedRight.qualified "b") "a.b.c" "b.c" .inner =
      .ok ⟨_, _⟩ :=
    Table.join_eq_ok.2 ⟨Table.valid_qualified valid "a", Table.valid_qualified valid' "b",
      by decide, by decide, by decide, rfl⟩
  exact ⟨_, bind_eq_ok.2 ⟨_, Inputs.ofTables_eq_ok.2 ⟨present, rfl⟩,
    bind_eq_ok.2 ⟨_, Inputs.take_eq_ok.2 ⟨rfl, rfl⟩,
      bind_eq_ok.2 ⟨_, Inputs.take_eq_ok.2 ⟨rfl, rfl⟩,
        bind_eq_ok.2 ⟨_, Step.run_eq_ok.2 join, rfl⟩⟩⟩⟩⟩

theorem engineNames_apart_crossed :
    (ColumnRef.qualified "a" "b.c").text ≠ (ColumnRef.qualified "b" "c").text ∧
    AggregateCall.label ⟨.max, some (.qualified "a" "c)")⟩ ≠
      AggregateCall.label ⟨.max, some (.qualified "a" "c")⟩ ∧
    AggregateCall.label ⟨.count, none⟩ ≠ (ColumnRef.qualified "b" "count(*)").text ∧
    ColumnRef.parse (ColumnRef.qualified "a" "b.c").text = .qualified "a" "b.c" ∧
    (columnsOf (crossed.declaredSources crossedData)).Nodup ∧
    (∀ step name, crossed.joined crossedData ≠
      .error (.stepFailed step (.table (.duplicateColumn name)))) ∧
    ∃ t, crossed.joined crossedData = .ok t ∧
      t.indexOf "a.b.c" = .ok 1 ∧ t.indexOf "b.c" = .ok 3 := by
  obtain ⟨texts, labels, kinds, reads, columns, joins⟩ := engineNames_apart
  have plain : (ColumnRef.qualified "a" "b.c").IsPlain := ⟨"a", rfl, by decide⟩
  have plainCall (c : String) : AggregateCall.IsPlain ⟨.max, some (.qualified "a" c)⟩ :=
    fun ref argument => by
      cases argument
      exact ⟨"a", rfl, by decide⟩
  have separate : Separate (crossed.declaredSources crossedData) :=
    ⟨by decide, by decide, by decide⟩
  obtain ⟨apart, located⟩ := joins crossed crossedData separate
  obtain ⟨t, ok⟩ := exists_crossed_joined
  have position := (located t ok).2.position
  refine ⟨?_, ?_, ?_, ?_, (columns _ separate).1, apart, t, ok, ?_, ?_⟩
  · rw [Ne, texts _ _ plain ⟨"b", rfl, by decide⟩]
    decide
  · rw [Ne, labels _ _ (plainCall "c)") (plainCall "c")]
    decide
  · exact kinds _ "b" "count(*)" (by decide) (by decide)
  · exact (reads "a" "b.c").2 ⟨by decide, by decide +kernel, by decide +kernel⟩
  · exact (position [] ⟨"a", _⟩ [_] rfl "b.c" 1).2 ⟨1, rfl, rfl⟩
  · exact (position [_] ⟨"b", _⟩ [] rfl "c" 3).2 ⟨1, rfl, rfl⟩

end TablePlan
