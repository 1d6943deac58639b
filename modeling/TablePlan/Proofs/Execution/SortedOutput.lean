import TablePlan.Execution
import TablePlan.Proofs.Resolution.Output
import TablePlan.Proofs.Table.Sorting

/-!
Sorting by output columns. A sort condition names an output column or the source of one, and sorting
the projected rows by these columns is sorting the rows by the sources, before they are projected.
-/

namespace TablePlan

open Success

namespace OutputColumn

/-- Whether a text names the source of an output column: it reads as its qualified column, or it is
the text of its call. -/
inductive NamedBySource (text : String) : OutputColumn → Prop
  | column {aliasName column name} (read : ColumnRef.parse text = .qualified aliasName column) :
    NamedBySource text ⟨.column (.qualified aliasName column), name⟩
  | aggregate {call : AggregateCall} {name} (label : call.label = text) :
    NamedBySource text ⟨.aggregate call, name⟩

theorem isSourceText_iff {text : String} {o : OutputColumn} :
    o.isSourceText text = true ↔ NamedBySource text o := by
  obtain ⟨source, name⟩ := o
  cases source with
  | column ref =>
    rw [isSourceText, Bool.and_eq_true, beq_iff_eq]
    constructor
    · rintro ⟨qualified, rfl⟩
      obtain ⟨aliasName, named⟩ := Option.isSome_iff_exists.1 qualified
      have read : ColumnRef.parse text = .qualified aliasName (ColumnRef.parse text).column := by
        rw [ColumnRef.qualified, ← named]
      rw [read]
      exact .column read
    · rintro ⟨read⟩
      rw [read]
      exact ⟨rfl, rfl⟩
  | aggregate call =>
    rw [isSourceText, beq_iff_eq]
    constructor
    · exact .aggregate
    · rintro ⟨⟩
      assumption

end OutputColumn

/-- The output column that a sort text stands for: the one of this name, or else the first whose
source it names. -/
inductive SortsBy (output : List OutputColumn) (text : String) : String → Prop
  | name (listed : text ∈ output.map OutputColumn.name) : SortsBy output text text
  | source {before o after} (unlisted : text ∉ output.map OutputColumn.name)
    (split : output = before ++ o :: after) (named : o.NamedBySource text)
    (first : ∀ other ∈ before, ¬ other.NamedBySource text) : SortsBy output text o.name

theorem sortColumn?_eq_some {output : List OutputColumn} {text column : String} :
    sortColumn? output text = some column ↔ SortsBy output text column := by
  have listed : output.any (·.name == text) = true ↔ text ∈ output.map OutputColumn.name := by
    simp
  unfold sortColumn?
  split
  · rename_i found
    rw [listed] at found
    constructor
    · intro same
      cases same
      exact .name found
    · rintro (_ | ⟨unlisted, _, _, _⟩)
      · rfl
      · exact absurd found unlisted
  · rename_i missing
    rw [listed] at missing
    rw [Option.map_eq_some_iff]
    constructor
    · rintro ⟨o, found, rfl⟩
      obtain ⟨named, before, after, split, first⟩ := List.find?_eq_some_iff_append.1 found
      refine .source missing split (OutputColumn.isSourceText_iff.1 named) fun other mem named => ?_
      simpa [OutputColumn.isSourceText_iff.2 named] using first other mem
    · rintro (found | ⟨_, split, named, first⟩)
      · exact absurd found missing
      · refine ⟨_, List.find?_eq_some_iff_append.2 ⟨OutputColumn.isSourceText_iff.2 named, _, _,
          split, fun other mem => ?_⟩, rfl⟩
        simpa using mt OutputColumn.isSourceText_iff.1 (first other mem)

namespace ResolvedSpec

variable {spec : ResolvedSpec} {output : List OutputColumn} {keys : List SortKey}

theorem sortKeys_eq_ok_iff_sortsBy : spec.sortKeys output = .ok keys ↔ List.Forall₂ (fun c k =>
    k.direction = c.direction ∧ SortsBy output c.column k.column) spec.sort keys := by
  simp only [sortKeys_eq_ok_iff, sortColumn?_eq_some]

end ResolvedSpec

def sourceName (output : List OutputColumn) (name : String) : String :=
  ((output.find? (·.name == name)).map fun o => o.source.columnName).getD name

def sourceKeys (output : List OutputColumn) (keys : List SortKey) : List SortKey :=
  keys.map fun k => ⟨sourceName output k.column, k.direction⟩

section Sources

variable {output : List OutputColumn} {keys : List SortKey} {columns : List String}

theorem exists_of_sourceName {name : String} (listed : name ∈ output.map OutputColumn.name) :
    ∃ o ∈ output, o.name = name ∧ sourceName output name = o.source.columnName := by
  obtain ⟨o, mem, rfl⟩ := List.mem_map.1 listed
  cases found : output.find? (·.name == o.name) with
  | none => exact absurd (beq_self_eq_true o.name) (List.find?_eq_none.1 found o mem)
  | some o' =>
    have same : o'.name = o.name := by simpa using List.find?_some found
    exact ⟨o', List.mem_of_find?_eq_some found, same, by rw [sourceName, found]; rfl⟩

theorem named_projected (distinct : (output.map OutputColumn.name).Nodup) {name : String}
    (listed : name ∈ output.map OutputColumn.name) (row : Row) :
    (Row.named (output.map OutputColumn.name)
      (output.map fun o => row.named columns o.source.columnName) name) =
      row.named columns (sourceName output name) := by
  obtain ⟨o, mem, rfl, source⟩ := exists_of_sourceName listed
  have cells : List.Forall₂ (fun o cell => cell = row.named columns o.source.columnName) output
      (output.map fun o => row.named columns o.source.columnName) :=
    List.forall₂_map_right_iff.2 (List.forall₂_same.2 fun _ _ => rfl)
  rw [source]
  exact Row.named_of_forall₂ cells distinct mem

theorem namedOrder_projected (distinct : (output.map OutputColumn.name).Nodup)
    (listed : ∀ k ∈ keys, k.column ∈ output.map OutputColumn.name) (a b : Row) :
    Row.namedOrder (output.map OutputColumn.name) keys
      (output.map fun o => a.named columns o.source.columnName)
      (output.map fun o => b.named columns o.source.columnName) =
      Row.namedOrder columns (sourceKeys output keys) a b := by
  induction keys with
  | nil => rfl
  | cons k keys ih =>
    rw [List.forall_mem_cons] at listed
    rw [sourceKeys, List.map_cons, Row.namedOrder, Row.namedOrder,
      named_projected distinct listed.1, named_projected distinct listed.1, ih listed.2]
    rfl

def shown (output : List OutputColumn) (t : Table) : Table :=
  ⟨output.map OutputColumn.name,
    t.rows.map fun row => output.map fun o => row.named t.columns o.source.columnName⟩

theorem project_eq_shown {t : Table} (valid : t.Valid)
    (distinct : (output.map OutputColumn.name).Nodup)
    (present : ∀ o ∈ output, o.source.columnName ∈ t.columns) :
    t.project (output.map OutputColumn.renaming) = .ok (shown output t) := by
  have names : (output.map OutputColumn.renaming).map Renaming.name =
      output.map OutputColumn.name := by
    rw [List.map_map]
    rfl
  refine Table.project_eq_ok.2 ⟨valid, List.forall_mem_map.2 present, names ▸ distinct, ?_⟩
  simp only [names, List.map_map]
  rfl

theorem sort_projected (sorter : Sorter) {t : Table} (valid : t.Valid)
    (distinct : (output.map OutputColumn.name).Nodup)
    (present : ∀ o ∈ output, o.source.columnName ∈ t.columns)
    (listed : ∀ k ∈ keys, k.column ∈ output.map OutputColumn.name) : ∃ result,
      (t.project (output.map OutputColumn.renaming) >>= fun t => t.sort sorter keys) =
        .ok result ∧
      (t.sort sorter (sourceKeys output keys) >>= Option.mapM fun t =>
        t.project (output.map OutputColumn.renaming)) = .ok result ∧
      (result = none → ¬ Consistent (Row.namedOrder t.columns (sourceKeys output keys))
        (· ∈ t.rows)) := by
  have valid_shown : (shown output t).Valid := ⟨distinct, by simp [shown]⟩
  have key_sources : ∀ k ∈ sourceKeys output keys, k.column ∈ t.columns := by
    refine List.forall_mem_map.2 fun k mem => ?_
    obtain ⟨o, mem, _, source⟩ := exists_of_sourceName (listed k mem)
    rw [source]
    exact present o mem
  have same : (shown output t).sorted sorter keys =
      (t.sorted sorter (sourceKeys output keys)).map (shown output) := by
    rw [Table.sorted, Table.sorted, shown, sorter.sort_map, Option.map_map, Option.map_map]
    simp only [namedOrder_projected distinct listed]
    rfl
  refine ⟨(t.sorted sorter (sourceKeys output keys)).map (shown output), ?_, ?_,
    fun gaveUp consistent => ?_⟩
  · rw [project_eq_shown valid distinct present, ok_bind, ← same]
    exact Table.sort_eq_sorted sorter valid_shown listed
  · rw [Table.sort_eq_sorted sorter valid key_sources, ok_bind]
    cases sorted : t.sorted sorter (sourceKeys output keys) with
    | none => rfl
    | some t' =>
      obtain ⟨rows, arranged, rfl⟩ := Table.sorted_eq_some.1 sorted
      have valid' := valid.rearranged (sorter.sort_perm arranged)
      rw [Option.mapM_some, project_eq_shown valid' distinct present]
      rfl
  · obtain ⟨rows, sorted, _⟩ := Table.exists_sorted t sorter (sourceKeys output keys) consistent
    rw [sorted] at gaveUp
    cases gaveUp

end Sources

namespace ResolvedSpec

/-- Sort conditions give one key each, in order and in their directions, over the output column that
they name, or else the first whose source they name. Sorting the projected rows by these keys is
sorting the rows by the sources of these columns and projecting them then. -/
theorem sortKeys_sort_sources {spec : ResolvedSpec} {output : List OutputColumn}
    {keys : List SortKey} (distinct : (output.map OutputColumn.name).Nodup)
    (ok : spec.sortKeys output = .ok keys) :
    List.Forall₂ (fun c k => k.direction = c.direction ∧ SortsBy output c.column k.column)
      spec.sort keys ∧
    ∀ (sorter : Sorter) (t : Table), t.Valid → (∀ o ∈ output, o.source.columnName ∈ t.columns) →
      ∃ result,
        (t.project (output.map OutputColumn.renaming) >>= fun t => t.sort sorter keys) =
          .ok result ∧
        (t.sort sorter (sourceKeys output keys) >>= Option.mapM fun t =>
          t.project (output.map OutputColumn.renaming)) = .ok result ∧
        (result = none → ¬ Consistent (Row.namedOrder t.columns (sourceKeys output keys))
          (· ∈ t.rows)) :=
  ⟨sortKeys_eq_ok_iff_sortsBy.1 ok, fun sorter _ valid present =>
    sort_projected sorter valid distinct present (mem_names_of_sortKeys ok)⟩

def byAge : ResolvedSpec where
  name := "people"
  tables := [⟨"e", "people", .source, none⟩]
  joins := []
  select := []
  filter := none
  group := []
  having := none
  sort := [⟨"e.age", .desc⟩, ⟨"who", .asc⟩]
  scope := ⟨["e"], [("e", ["name", "age"])]⟩

/-- The age stands under a name that reads as another column. -/
def ageOutput : List OutputColumn :=
  [⟨.column (.qualified "e" "age"), "e.name"⟩, ⟨.column (.qualified "e" "name"), "who"⟩]

theorem sortKeys_sort_sources_ages : (ageOutput.map OutputColumn.name).Nodup ∧
    byAge.sortKeys ageOutput = .ok [⟨"e.name", .desc⟩, ⟨"who", .asc⟩] ∧
    let t : Table := ⟨["e.name", "e.age"], [[.text "Bob", .int 7], [.text "Ann", .int 7]]⟩
    let sources := sourceKeys ageOutput [⟨"e.name", .desc⟩, ⟨"who", .asc⟩]
    ∃ result,
      (t.project (ageOutput.map OutputColumn.renaming) >>= fun t =>
        t.sort .standard [⟨"e.name", .desc⟩, ⟨"who", .asc⟩]) = .ok result ∧
      (t.sort .standard sources >>= Option.mapM fun t =>
        t.project (ageOutput.map OutputColumn.renaming)) = .ok result ∧
      (result = none → ¬ Consistent (Row.namedOrder t.columns sources) (· ∈ t.rows)) := by
  have distinct : (ageOutput.map OutputColumn.name).Nodup := by decide
  have keys : byAge.sortKeys ageOutput = .ok [⟨"e.name", .desc⟩, ⟨"who", .asc⟩] := by
    decide +kernel
  refine ⟨distinct, keys, (sortKeys_sort_sources distinct keys).2 .standard _ ?_ ?_⟩
  · exact ⟨by decide, by simp⟩
  · decide

end ResolvedSpec

end TablePlan
