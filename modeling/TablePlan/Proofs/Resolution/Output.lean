import TablePlan.Plan.Output
import TablePlan.Proofs.Success
import TablePlan.Resolution.Sorting
import Mathlib.Data.List.Basic
import Mathlib.Tactic.Common

/-!
Output columns and sort keys. Output columns have distinct names and come from selected entries; a
sort key names one of them.
-/

namespace TablePlan

open Success

namespace ResolvedSpec

variable {spec : ResolvedSpec}

theorem selectedSource_eq_ok {entry : ResolvedSelect} {source : ColumnSource} :
    spec.selectedSource entry = .ok source ↔ entry.source = .resolved source ∧
      (spec.isAggregated = true → ∀ ref, source = .column ref → ref ∈ spec.group) := by
  unfold selectedSource
  split
  · rename_i ambiguous
    simp [ambiguous]
  · rename_i ref resolved
    rw [resolved]
    split
    · rename_i outside
      simp only [Bool.and_eq_true, Bool.not_eq_true', List.contains_eq_mem,
        decide_eq_false_iff_not] at outside
      refine iff_of_false nofun ?_
      rintro ⟨same, grouped⟩
      injection same with same
      exact outside.2 (grouped outside.1 ref same.symm)
    · rename_i inside
      simp only [Bool.and_eq_true, Bool.not_eq_true', List.contains_eq_mem,
        decide_eq_false_iff_not, not_and, not_not] at inside
      constructor
      · intro ok
        cases ok
        refine ⟨rfl, fun aggregated ref' same => ?_⟩
        cases same
        exact inside aggregated
      · rintro ⟨same, _⟩
        cases same
        rfl
  · rename_i found isCall resolved
    rw [resolved]
    constructor
    · intro ok
      cases ok
      exact ⟨rfl, fun _ ref same => (isCall ref same).elim⟩
    · rintro ⟨same, _⟩
      cases same
      rfl

def Names (spec : ResolvedSpec) (entry : ResolvedSelect) (o : OutputColumn) : Prop :=
  spec.selectedSource entry = .ok o.source ∧
    o.name = entry.outputName.getD o.source.defaultName

theorem nameEntries_eq_ok {entries : List ResolvedSelect} {earlier named : List NamedSelect}
    (distinct : (earlier.map (·.output.name)).Nodup)
    (ok : spec.nameEntries earlier entries = .ok named) :
    (named.map (·.output.name)).Nodup ∧ ∃ new, named = earlier ++ new ∧
      List.Forall₂ spec.Names entries (new.map NamedSelect.output) := by
  induction entries generalizing earlier with
  | nil =>
    cases ok
    exact ⟨distinct, [], (List.append_nil _).symm, .nil⟩
  | cons entry entries ih =>
    obtain ⟨source, selected, ok⟩ := bind_eq_ok.1 ok
    dsimp only at ok
    split at ok
    · cases ok
    · rename_i unused
      have fresh : entry.outputName.getD source.defaultName ∉ earlier.map (·.output.name) := by
        simpa using unused
      let next : NamedSelect := ⟨⟨source, entry.outputName.getD source.defaultName⟩, entry⟩
      have grown : ((earlier ++ [next]).map (·.output.name)).Nodup := by
        rw [((List.perm_append_singleton next earlier).map _).nodup_iff]
        exact List.nodup_cons.2 ⟨fresh, distinct⟩
      obtain ⟨names, new, rfl, rest⟩ := ih grown ok
      exact ⟨names, next :: new, List.append_assoc _ _ _, .cons ⟨selected, rfl⟩ rest⟩

theorem exists_nameEntries {entries : List ResolvedSelect} {output : List OutputColumn}
    (outputs : List.Forall₂ spec.Names entries output) {earlier : List NamedSelect}
    (distinct : (earlier.map (·.output.name) ++ output.map OutputColumn.name).Nodup) :
    ∃ new, spec.nameEntries earlier entries = .ok (earlier ++ new) ∧
      new.map NamedSelect.output = output := by
  induction outputs generalizing earlier with
  | nil => exact ⟨[], by rw [nameEntries, List.append_nil], rfl⟩
  | @cons entry o entries output names _ ih =>
    obtain ⟨source, rfl⟩ : ∃ source, o = ⟨source, entry.outputName.getD source.defaultName⟩ :=
      ⟨o.source, by rw [← names.2]⟩
    let next : NamedSelect := ⟨⟨source, entry.outputName.getD source.defaultName⟩, entry⟩
    have unused : earlier.find? (·.output.name == next.output.name) = none := by
      have fresh := (List.nodup_append.1 distinct).2.2
      simpa [next] using fun e mem => fresh _ (List.mem_map_of_mem mem) _ List.mem_cons_self
    have distinct : ((earlier ++ [next]).map (·.output.name) ++
        output.map OutputColumn.name).Nodup := by simpa [next] using distinct
    obtain ⟨new, named, rfl⟩ := ih distinct
    refine ⟨next :: new, ?_, rfl⟩
    rw [nameEntries, names.1, ok_bind]
    dsimp only
    rw [unused]
    exact named.trans (by rw [List.append_assoc, List.singleton_append])

theorem nameEntries_congr {spec' : ResolvedSpec}
    (same : ∀ entry, spec'.selectedSource entry = spec.selectedSource entry)
    (earlier : List NamedSelect) (entries : List ResolvedSelect) :
    spec'.nameEntries earlier entries = spec.nameEntries earlier entries := by
  induction entries generalizing earlier with
  | nil => rfl
  | cons entry entries ih =>
    rw [nameEntries, nameEntries]
    simp only [ih, same]

theorem outputColumns_congr {spec' : ResolvedSpec} (select : spec'.select = spec.select)
    (same : ∀ entry, spec'.selectedSource entry = spec.selectedSource entry) :
    spec'.outputColumns = spec.outputColumns := by
  rw [outputColumns, outputColumns, select, nameEntries_congr same]

theorem outputColumns_eq_ok {output : List OutputColumn} : spec.outputColumns = .ok output ↔
    (output.map OutputColumn.name).Nodup ∧ List.Forall₂ spec.Names spec.select output := by
  constructor
  · intro ok
    obtain ⟨named, made, same⟩ := bind_eq_ok.1 ok
    cases pure_eq_ok.1 same
    have unnamed : (([] : List NamedSelect).map (·.output.name)).Nodup := List.nodup_nil
    obtain ⟨names, new, rfl, outputs⟩ := nameEntries_eq_ok unnamed made
    rw [List.map_map]
    exact ⟨names, outputs⟩
  · rintro ⟨distinct, outputs⟩
    have distinct : (([] : List NamedSelect).map (·.output.name) ++
        output.map OutputColumn.name).Nodup := distinct
    obtain ⟨new, named, rfl⟩ := exists_nameEntries outputs distinct
    exact bind_eq_ok.2 ⟨_, named, rfl⟩

theorem resolved_of_outputColumns {output : List OutputColumn}
    (ok : spec.outputColumns = .ok output) :
    ∀ entry ∈ spec.select, ∃ source, entry.source = .resolved source := by
  intro entry mem
  obtain ⟨o, _, names, _⟩ := exists_of_mem_forall₂ (outputColumns_eq_ok.1 ok).2.flip mem
  exact ⟨o.source, (selectedSource_eq_ok.1 names).1⟩

theorem exists_entry_of_outputColumns {output : List OutputColumn}
    (ok : spec.outputColumns = .ok output) :
    ∀ o ∈ output, ∃ entry ∈ spec.select, spec.selectedSource entry = .ok o.source := by
  intro o mem
  obtain ⟨entry, mem_entry, names⟩ := exists_of_mem_forall₂ (outputColumns_eq_ok.1 ok).2 mem
  exact ⟨entry, mem_entry, names.1⟩

theorem mem_names_of_sortColumn? {output : List OutputColumn} {text column : String}
    (found : sortColumn? output text = some column) : column ∈ output.map OutputColumn.name := by
  unfold sortColumn? at found
  split at found
  · rename_i named
    cases found
    simpa using named
  · obtain ⟨o, source, rfl⟩ := Option.map_eq_some_iff.1 found
    exact List.mem_map_of_mem (List.mem_of_find?_eq_some source)

theorem sortKey_eq_ok {output : List OutputColumn} {index : Nat} {c : SortCondition}
    {k : SortKey} : spec.sortKey output index c = .ok k ↔
      k.direction = c.direction ∧ sortColumn? output c.column = some k.column := by
  unfold sortKey
  split
  · rename_i column found
    rw [found]
    constructor
    · intro made
      cases made
      exact ⟨rfl, rfl⟩
    · rintro ⟨direction, same⟩
      cases same
      rw [← direction]
  · rename_i missing
    rw [missing]
    refine iff_of_false ?_ fun made => by cases made.2
    split
    · split <;> nofun
    · nofun

theorem sortKeys_eq_ok_iff {output : List OutputColumn} {keys : List SortKey} :
    spec.sortKeys output = .ok keys ↔ List.Forall₂ (fun c k =>
      k.direction = c.direction ∧ sortColumn? output c.column = some k.column) spec.sort keys :=
  mapM_zipIdx_eq_ok fun _ _ _ => sortKey_eq_ok

theorem sortKeys_eq_ok {output : List OutputColumn} {keys : List SortKey}
    (ok : spec.sortKeys output = .ok keys) : List.Forall₂ (fun c k =>
      k.direction = c.direction ∧ sortColumn? output c.column = some k.column) spec.sort keys :=
  sortKeys_eq_ok_iff.1 ok

theorem mem_names_of_sortKeys {output : List OutputColumn} {keys : List SortKey}
    (ok : spec.sortKeys output = .ok keys) :
    ∀ k ∈ keys, k.column ∈ output.map OutputColumn.name := by
  intro k mem
  obtain ⟨c, _, _, found⟩ := exists_of_mem_forall₂ (sortKeys_eq_ok ok) mem
  exact mem_names_of_sortColumn? found

end ResolvedSpec

end TablePlan
