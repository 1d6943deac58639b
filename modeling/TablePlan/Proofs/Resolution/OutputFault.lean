import TablePlan.Proofs.Resolution.Bound
import TablePlan.Proofs.Resolution.Output

/-!
Selections without output columns. The first selected entry at fault is reported: its column is in
several tables, it is a column that the groups leave without a value, or its output name is taken.
-/

namespace TablePlan

open Success

namespace ResolvedSelect

/-- The output column of an entry whose source is known, under the written name, or else under the
name of its column or the text of its call. -/
def output? (entry : ResolvedSelect) : Option OutputColumn :=
  match entry.source with
  | .resolved source => some ⟨source, entry.outputName.getD source.defaultName⟩
  | .ambiguous _ _ => none

variable {entry : ResolvedSelect} {o : OutputColumn}

theorem output?_eq_some : entry.output? = some o ↔
    entry.source = .resolved o.source ∧ o.name = entry.outputName.getD o.source.defaultName := by
  unfold output?
  split
  · rename_i source known
    rw [known]
    constructor
    · intro same
      cases same
      exact ⟨rfl, rfl⟩
    · rintro ⟨same, named⟩
      cases same
      rw [← named]
  · rename_i several
    simp [several]

theorem output?_eq_none :
    entry.output? = none ↔ ∃ column aliases, entry.source = .ambiguous column aliases := by
  unfold output?
  split
  · rename_i known
    simp [known]
  · rename_i column aliases several
    exact iff_of_true rfl ⟨column, aliases, several⟩

end ResolvedSelect

namespace ResolvedSpec

variable {spec : ResolvedSpec}

/-- Whether the rows of a spec are grouped: by columns, or for an aggregate call that is selected or
stands in the condition on groups. -/
def Groups (spec : ResolvedSpec) : Prop :=
  spec.group ≠ [] ∨ (∃ entry ∈ spec.select, ∃ call, entry.source = .resolved (.aggregate call)) ∨
    ∃ p ∈ spec.having, ∃ call, .aggregate call ∈ p.operands

theorem mem_aggregates_iff {call : AggregateCall} : call ∈ spec.aggregates ↔
    (∃ entry ∈ spec.select, entry.source = .resolved (.aggregate call)) ∨
      ∃ p ∈ spec.having, .aggregate call ∈ p.operands := by
  rw [mem_aggregates, calls, List.mem_append, List.mem_filterMap]
  refine or_congr (exists_congr fun entry => and_congr_right fun _ => ?_) ?_
  · unfold ResolvedSelect.aggregate?
    split <;> simp_all
  · cases spec.having with
    | none => simp
    | some p =>
      simp only [Option.map_some, Option.getD_some, Option.mem_some_iff, exists_eq_left',
        Predicate.aggregates, List.mem_filterMap]
      constructor
      · rintro ⟨operand, mem, found⟩
        cases operand <;> cases found
        exact mem
      · exact fun mem => ⟨_, mem, rfl⟩

theorem isAggregated_iff : spec.isAggregated = true ↔ spec.Groups := by
  have used : spec.aggregates ≠ [] ↔
      (∃ entry ∈ spec.select, ∃ call, entry.source = .resolved (.aggregate call)) ∨
        ∃ p ∈ spec.having, ∃ call, .aggregate call ∈ p.operands := by
    constructor
    · intro some_call
      obtain ⟨call, mem⟩ := List.exists_mem_of_ne_nil _ some_call
      exact (mem_aggregates_iff.1 mem).imp (fun ⟨entry, mem, source⟩ => ⟨entry, mem, call, source⟩)
        fun ⟨p, having, mem⟩ => ⟨p, having, call, mem⟩
    · rintro (⟨entry, mem, call, source⟩ | ⟨p, having, call, mem⟩)
      · exact List.ne_nil_of_mem (mem_aggregates_of_select mem source)
      · exact List.ne_nil_of_mem (mem_aggregates_of_having having mem)
  rw [isAggregated, Groups, ← used]
  simp

def Ungrouped (spec : ResolvedSpec) (entry : ResolvedSelect) (ref : ColumnRef) : Prop :=
  entry.source = .resolved (.column ref) ∧ spec.Groups ∧ ref ∉ spec.group

/-- Whether an entry would take the output name of an earlier one, and `first` is the first that has
this name. -/
structure Collides (before : List ResolvedSelect) (entry first : ResolvedSelect) (name : String) :
    Prop where
  named : entry.output?.map OutputColumn.name = some name
  earliest : ∃ earlier between, before = earlier ++ first :: between ∧
    first.output?.map OutputColumn.name = some name ∧
    ∀ other ∈ earlier, other.output?.map OutputColumn.name ≠ some name

/-- What is reported of an entry behind earlier ones. -/
inductive SelectFault (spec : ResolvedSpec) (before : List ResolvedSelect)
    (entry : ResolvedSelect) : OutputError → Prop
  | ambiguous {column aliases} (several : entry.source = .ambiguous column aliases) :
    SelectFault spec before entry
      (.ambiguous column (aliases.map fun aliasName => aliasName ++ "." ++ column))
  | ungrouped {ref} (outside : spec.Ungrouped entry ref) :
    SelectFault spec before entry (.ungroupedColumn ref)
  /-- Both names are written. -/
  | duplicate {first name} (grouped : ∀ ref, ¬ spec.Ungrouped entry ref)
    (collides : Collides before entry first name)
    (written : first.outputName ≠ none ∧ entry.outputName ≠ none) :
    SelectFault spec before entry (.duplicateName name)
  /-- One of the names is the one of a column or the text of a call. -/
  | shared {first name} (grouped : ∀ ref, ¬ spec.Ungrouped entry ref)
    (collides : Collides before entry first name)
    (unwritten : first.outputName = none ∨ entry.outputName = none) :
    SelectFault spec before entry (.ambiguous name [first.key, entry.key])

structure Selectable (spec : ResolvedSpec) : Prop where
  unambiguous : ∀ entry ∈ spec.select, ∀ column aliases, entry.source ≠ .ambiguous column aliases
  grouped : ∀ entry ∈ spec.select, ∀ ref, ¬ spec.Ungrouped entry ref
  distinct : ((spec.select.filterMap ResolvedSelect.output?).map OutputColumn.name).Nodup

theorem names_iff {entry : ResolvedSelect} {o : OutputColumn} : spec.Names entry o ↔
    entry.output? = some o ∧ ∀ ref, ¬ spec.Ungrouped entry ref := by
  rw [Names, selectedSource_eq_ok, ResolvedSelect.output?_eq_some, isAggregated_iff]
  constructor
  · rintro ⟨⟨source, grouped⟩, named⟩
    refine ⟨⟨source, named⟩, ?_⟩
    rintro ref ⟨column, groups, outside⟩
    rw [source] at column
    injection column with column
    exact outside (grouped groups ref column)
  · rintro ⟨⟨source, named⟩, grouped⟩
    refine ⟨⟨source, fun groups ref column => ?_⟩, named⟩
    by_contra outside
    exact grouped ref ⟨column ▸ source, groups, outside⟩

/-- The entries that are named already, seen from the entries. -/
def Tracks (earlier : List NamedSelect) : Prop :=
  ∀ n ∈ earlier, n.entry.output? = some n.output

section Step

variable {earlier : List NamedSelect} {entry : ResolvedSelect} {e : OutputError}

theorem find?_of_collides (tracks : Tracks earlier) {first : ResolvedSelect} {name : String}
    (collides : Collides (earlier.map NamedSelect.entry) entry first name) :
    ∃ n, n.entry = first ∧ earlier.find? (·.output.name == name) = some n := by
  obtain ⟨before, between, split, same, fresh⟩ := collides.earliest
  obtain ⟨named, rest, rfl, rfl, cut⟩ := List.map_eq_append_iff.1 split
  obtain ⟨n, rest, rfl, rfl, rfl⟩ := List.map_eq_cons_iff.1 cut
  have known := tracks n (List.mem_append_right _ List.mem_cons_self)
  refine ⟨n, rfl, List.find?_eq_some_iff_append.2 ⟨?_, named, rest, rfl, fun m mem => ?_⟩⟩
  · simpa [known] using same
  · have other := fresh m.entry (List.mem_map_of_mem mem)
    rw [tracks m (List.mem_append_left _ mem)] at other
    simpa using other

theorem collides_of_find? (tracks : Tracks earlier) {o : OutputColumn}
    (asks : entry.output? = some o) {n : NamedSelect}
    (found : earlier.find? (·.output.name == o.name) = some n) :
    Collides (earlier.map NamedSelect.entry) entry n.entry o.name := by
  obtain ⟨same, before, between, rfl, fresh⟩ := List.find?_eq_some_iff_append.1 found
  refine ⟨by rw [asks]; rfl, before.map NamedSelect.entry, between.map NamedSelect.entry,
    by rw [List.map_append, List.map_cons], ?_, ?_⟩
  · rw [tracks n (List.mem_append_right _ List.mem_cons_self), Option.map_some]
    exact congrArg some (beq_iff_eq.1 same)
  · rw [List.forall_mem_map]
    intro m mem
    rw [tracks m (List.mem_append_left _ mem)]
    simpa using fresh m mem

theorem names_of_collides {before : List ResolvedSelect} {first : ResolvedSelect} {name : String}
    (grouped : ∀ ref, ¬ spec.Ungrouped entry ref) (collides : Collides before entry first name) :
    ∃ o, spec.Names entry o ∧ o.name = name := by
  obtain ⟨o, asks, rfl⟩ := Option.map_eq_some_iff.1 collides.named
  exact ⟨o, names_iff.2 ⟨asks, grouped⟩, rfl⟩

theorem nameEntries_of_names {o : OutputColumn} (names : spec.Names entry o)
    (entries : List ResolvedSelect) : spec.nameEntries earlier (entry :: entries) =
      match earlier.find? (·.output.name == o.name) with
      | some first => .error (conflict o.name first.entry entry)
      | none => spec.nameEntries (earlier ++ [⟨o, entry⟩]) entries := by
  obtain ⟨source, name⟩ := o
  obtain rfl : name = entry.outputName.getD source.defaultName := names.2
  rw [nameEntries, names.1]
  rfl

theorem nameEntries_of_collides (tracks : Tracks earlier) {first : ResolvedSelect} {name : String}
    (grouped : ∀ ref, ¬ spec.Ungrouped entry ref)
    (collides : Collides (earlier.map NamedSelect.entry) entry first name)
    (entries : List ResolvedSelect) :
    spec.nameEntries earlier (entry :: entries) = .error (conflict name first entry) := by
  obtain ⟨o, names, rfl⟩ := names_of_collides grouped collides
  obtain ⟨n, rfl, found⟩ := find?_of_collides tracks collides
  rw [nameEntries_of_names names, found]

theorem nameEntries_of_fault (tracks : Tracks earlier)
    (fault : spec.SelectFault (earlier.map NamedSelect.entry) entry e)
    (entries : List ResolvedSelect) : spec.nameEntries earlier (entry :: entries) = .error e := by
  cases fault with
  | ambiguous several => rw [nameEntries, selectedSource, several]; rfl
  | @ungrouped ref outside =>
    obtain ⟨column, groups, outside⟩ := outside
    have refused : (spec.isAggregated && !spec.group.contains ref) = true := by
      simpa [isAggregated_iff.2 groups] using outside
    rw [nameEntries, selectedSource, column]
    simp only [refused, if_true]
    rfl
  | duplicate grouped collides written =>
    rw [nameEntries_of_collides tracks grouped collides, conflict, if_pos]
    simpa [Option.isSome_iff_ne_none] using written
  | shared grouped collides unwritten =>
    rw [nameEntries_of_collides tracks grouped collides, conflict, if_neg]
    rw [Bool.and_eq_true, Option.isSome_iff_ne_none, Option.isSome_iff_ne_none]
    tauto

theorem nameEntries_of_faultless (tracks : Tracks earlier)
    (faultless : ∀ e, ¬ spec.SelectFault (earlier.map NamedSelect.entry) entry e) :
    ∃ o, entry.output? = some o ∧ ∀ entries, spec.nameEntries earlier (entry :: entries) =
      spec.nameEntries (earlier ++ [⟨o, entry⟩]) entries := by
  cases asks : entry.output? with
  | none =>
    obtain ⟨column, aliases, several⟩ := ResolvedSelect.output?_eq_none.1 asks
    exact absurd (.ambiguous several) (faultless _)
  | some o =>
    have grouped : ∀ ref, ¬ spec.Ungrouped entry ref := fun ref outside =>
      faultless _ (.ungrouped outside)
    refine ⟨o, rfl, fun entries => ?_⟩
    rw [nameEntries_of_names (names_iff.2 ⟨asks, grouped⟩)]
    cases found : earlier.find? (·.output.name == o.name) with
    | none => rfl
    | some n =>
      have collides := collides_of_find? tracks asks found
      by_cases written : n.entry.outputName ≠ none ∧ entry.outputName ≠ none
      · exact absurd (.duplicate grouped collides written) (faultless _)
      · have unwritten : n.entry.outputName = none ∨ entry.outputName = none := by tauto
        exact absurd (.shared grouped collides unwritten) (faultless _)

end Step

def Faultless (spec : ResolvedSpec) (before entries : List ResolvedSelect) : Prop :=
  ∀ earlier entry after, entries = earlier ++ entry :: after →
    ∀ e, ¬ spec.SelectFault (before ++ earlier) entry e

theorem faultless_nil (before : List ResolvedSelect) : spec.Faultless before [] :=
  fun earlier _ _ split => absurd split.symm (List.append_ne_nil_of_right_ne_nil earlier nofun)

theorem faultless_cons {before entries : List ResolvedSelect} {entry : ResolvedSelect} :
    spec.Faultless before (entry :: entries) ↔
      (∀ e, ¬ spec.SelectFault before entry e) ∧ spec.Faultless (before ++ [entry]) entries := by
  constructor
  · intro faultless
    refine ⟨fun e fault => faultless [] entry entries rfl e (by rwa [List.append_nil]), ?_⟩
    rintro earlier other after rfl e fault
    exact faultless (entry :: earlier) other after rfl e (by rwa [List.append_cons])
  · rintro ⟨first, rest⟩ (_ | ⟨_, earlier⟩) other after split e fault
    · cases split
      exact first e (by rwa [List.append_nil] at fault)
    · cases split
      exact rest earlier other after rfl e (by rwa [← List.append_cons])

theorem nameEntries_eq_error {entries : List ResolvedSelect} {earlier : List NamedSelect}
    {e : OutputError} (tracks : Tracks earlier) : spec.nameEntries earlier entries = .error e ↔
      ∃ before entry after, entries = before ++ entry :: after ∧
        spec.Faultless (earlier.map NamedSelect.entry) before ∧
        spec.SelectFault (earlier.map NamedSelect.entry ++ before) entry e := by
  induction entries generalizing earlier with
  | nil => simp [nameEntries]
  | cons entry entries ih =>
    by_cases fault : ∃ e', spec.SelectFault (earlier.map NamedSelect.entry) entry e'
    · obtain ⟨e', fault⟩ := fault
      rw [nameEntries_of_fault tracks fault]
      constructor
      · intro same
        cases same
        exact ⟨[], entry, entries, rfl, faultless_nil _, by rwa [List.append_nil]⟩
      · rintro ⟨_ | ⟨_, before⟩, other, after, split, faultless, fault'⟩
        · cases split
          rw [List.append_nil] at fault'
          exact (nameEntries_of_fault tracks fault []).symm.trans
            (nameEntries_of_fault tracks fault' [])
        · cases split
          exact absurd fault ((faultless_cons.1 faultless).1 e')
    · rw [not_exists] at fault
      obtain ⟨o, asks, step⟩ := nameEntries_of_faultless tracks fault
      have tracks' : Tracks (earlier ++ [⟨o, entry⟩]) :=
        List.forall_mem_append.2 ⟨tracks, List.forall_mem_singleton.2 asks⟩
      rw [step, ih tracks', List.map_append, List.map_singleton]
      constructor
      · rintro ⟨before, other, after, rfl, rest, fault'⟩
        have faultless := faultless_cons.2 ⟨fault, rest⟩
        refine ⟨entry :: before, other, after, rfl, faultless, ?_⟩
        rwa [List.append_cons]
      · rintro ⟨_ | ⟨_, before⟩, other, after, split, faultless, fault'⟩
        · cases split
          exact absurd (by rwa [List.append_nil] at fault') (fault e)
        · cases split
          have rest := (faultless_cons.1 faultless).2
          refine ⟨before, other, after, rfl, rest, ?_⟩
          rwa [← List.append_cons]

theorem outputColumns_eq_error {e : OutputError} : spec.outputColumns = .error e ↔
    ∃ before entry after, spec.select = before ++ entry :: after ∧ spec.Faultless [] before ∧
      spec.SelectFault before entry e := by
  have made : spec.outputColumns = .error e ↔ spec.nameEntries [] spec.select = .error e := by
    rw [outputColumns]
    cases spec.nameEntries [] spec.select <;> simp [bind, Except.bind, pure, Except.pure]
  have none : Tracks [] := List.forall_mem_nil _
  rw [made]
  exact nameEntries_eq_error none

theorem forall₂_output? {entries : List ResolvedSelect} {output : List OutputColumn} :
    List.Forall₂ (fun entry o => entry.output? = some o) entries output ↔
      (∀ entry ∈ entries, ∃ o, entry.output? = some o) ∧
        output = entries.filterMap ResolvedSelect.output? := by
  induction entries generalizing output with
  | nil => simp
  | cons entry entries ih =>
    rw [List.forall₂_cons_left_iff, List.forall_mem_cons]
    constructor
    · rintro ⟨o, rest, asks, others, rfl⟩
      obtain ⟨all, rfl⟩ := ih.1 others
      exact ⟨⟨⟨o, asks⟩, all⟩, by rw [List.filterMap_cons_some asks]⟩
    · rintro ⟨⟨⟨o, asks⟩, all⟩, rfl⟩
      exact ⟨o, _, asks, ih.2 ⟨all, rfl⟩, by rw [List.filterMap_cons_some asks]⟩

/-- A selection has output columns exactly when no entry is ambiguous, every plain column is among
the groups if rows are grouped, and the output names are distinct; the output columns are those of
the entries, in order. Otherwise the first entry at fault is reported. -/
theorem outputColumns_outcome (spec : ResolvedSpec) :
    (∀ output, spec.outputColumns = .ok output ↔
      spec.Selectable ∧ output = spec.select.filterMap ResolvedSelect.output?) ∧
    ∀ e, spec.outputColumns = .error e ↔ ∃ before entry after,
      spec.select = before ++ entry :: after ∧ spec.Faultless [] before ∧
        spec.SelectFault before entry e := by
  refine ⟨fun output => ?_, fun e => outputColumns_eq_error⟩
  have names : spec.Names = fun entry o =>
      (∀ ref, ¬ spec.Ungrouped entry ref) ∧ entry.output? = some o :=
    funext fun entry => funext fun o => propext (names_iff.trans and_comm)
  have unambiguous : (∀ entry ∈ spec.select, ∃ o, entry.output? = some o) ↔
      ∀ entry ∈ spec.select, ∀ column aliases, entry.source ≠ .ambiguous column aliases := by
    refine forall₂_congr fun entry _ => ?_
    rw [← Option.ne_none_iff_exists', Ne, ResolvedSelect.output?_eq_none]
    simp
  rw [outputColumns_eq_ok, names, List.forall₂_and_left, forall₂_output?, unambiguous]
  constructor
  · rintro ⟨distinct, grouped, known, rfl⟩
    exact ⟨⟨known, grouped, distinct⟩, rfl⟩
  · rintro ⟨selectable, rfl⟩
    exact ⟨selectable.distinct, selectable.grouped, selectable.unambiguous, rfl⟩

end ResolvedSpec

end TablePlan
