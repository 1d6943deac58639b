import TablePlan.Proofs.Table.NumberedGroups
import Mathlib.Algebra.Ring.Int.Defs
import Mathlib.Algebra.Ring.Nat

/-!
Groups as a partition of the rows of a table. The numbers of the rows fall into one part for each
list of keys under the group columns, in the order in which these lists are met first. Without group
columns they are one part. The group of a part shows the group cells of its first row and what each
call makes of its rows.
-/

namespace TablePlan

open Success

namespace NumberedGroup

variable {groups : List NumberedGroup} {cells : Nat → List Cell} {count : Nat}

theorem flatMap_members_insert (cells : List Cell) (number : Nat) :
    ((insert cells number groups).flatMap members).Perm
      (groups.flatMap members ++ [number]) := by
  induction groups with
  | nil => exact .refl _
  | cons g groups ih =>
    unfold insert
    split
    · simp only [List.flatMap_cons, List.append_assoc]
      exact List.perm_append_comm.append_left _
    · simp only [List.flatMap_cons, List.append_assoc]
      exact ih.append_left _

theorem map_key_insert (cells : List Cell) (number : Nat) :
    (insert cells number groups).map key = if cells.map Cell.key ∈ groups.map key
      then groups.map key else groups.map key ++ [cells.map Cell.key] := by
  induction groups with
  | nil => rfl
  | cons g groups ih =>
    unfold insert
    split
    · rename_i same
      rw [List.map_cons, List.map_cons, if_pos (List.mem_cons.2 (.inl same.symm))]
      rfl
    · rename_i other
      simp only [List.map_cons, List.mem_cons, Ne.symm other, false_or, ih]
      split <;> rfl

theorem of_mem_insert {cells : List Cell} {number : Nat} {g : NumberedGroup}
    (distinct : (groups.map key).Nodup) (mem : g ∈ insert cells number groups) :
    (g ∈ groups ∧ g.key ≠ cells.map Cell.key) ∨
      (∃ old ∈ groups, old.key = cells.map Cell.key ∧
        g = ⟨old.cells, old.members ++ [number]⟩) ∨
      (cells.map Cell.key ∉ groups.map key ∧ g = ⟨cells, [number]⟩) := by
  induction groups with
  | nil => exact .inr (.inr ⟨List.not_mem_nil, List.mem_singleton.1 mem⟩)
  | cons first groups ih =>
    rw [List.map_cons, List.nodup_cons] at distinct
    unfold insert at mem
    split at mem
    · rename_i same
      obtain rfl | mem := List.mem_cons.1 mem
      · exact .inr (.inl ⟨first, List.mem_cons_self, same, rfl⟩)
      · refine .inl ⟨List.mem_cons_of_mem _ mem, fun again => distinct.1 ?_⟩
        rw [same, ← again]
        exact List.mem_map_of_mem mem
    · rename_i other
      obtain rfl | mem := List.mem_cons.1 mem
      · exact .inl ⟨List.mem_cons_self, other⟩
      · obtain ⟨mem, differs⟩ | ⟨old, mem, same⟩ | ⟨new, made⟩ := ih distinct.2 mem
        · exact .inl ⟨List.mem_cons_of_mem _ mem, differs⟩
        · exact .inr (.inl ⟨old, List.mem_cons_of_mem _ mem, same⟩)
        · refine .inr (.inr ⟨?_, made⟩)
          rw [List.map_cons, List.mem_cons, not_or]
          exact ⟨Ne.symm other, new⟩

structure Numbers (cells : Nat → List Cell) (count : Nat) (groups : List NumberedGroup) :
    Prop where
  whole : (groups.flatMap members).Perm (List.range count)
  distinct : (groups.map key).Nodup
  keys : groups.map key = ((List.range count).map fun n => (cells n).map Cell.key).eraseDups
  members : ∀ g ∈ groups, g.members =
    (List.range count).filter fun n => (cells n).map Cell.key = g.key
  cells : ∀ g ∈ groups, ∃ n ∈ g.members.head?, g.cells = cells n

theorem Numbers.insert (numbers : Numbers cells count groups) :
    Numbers cells (count + 1) (insert (cells count) count groups) := by
  have filtered (k : List CellKey) :
      ((List.range (count + 1)).filter fun n => (cells n).map Cell.key = k) =
        ((List.range count).filter fun n => (cells n).map Cell.key = k) ++
          if (cells count).map Cell.key = k then [count] else [] := by
    rw [List.range_succ, List.filter_append, List.filter_singleton]
    by_cases same : (cells count).map Cell.key = k <;> simp [same]
  constructor
  case whole =>
    rw [List.range_succ]
    exact (flatMap_members_insert _ _).trans (numbers.whole.append_right _)
  case distinct =>
    rw [map_key_insert]
    split
    · exact numbers.distinct
    · rename_i new
      exact List.nodup_append.2 ⟨numbers.distinct, List.nodup_singleton _, fun k mem k' mem' =>
        fun same => new (List.mem_singleton.1 mem' ▸ same ▸ mem)⟩
  case keys =>
    rw [map_key_insert, numbers.keys, List.range_succ, List.map_append, List.map_singleton,
      eraseDups_concat]
    simp only [List.mem_eraseDups]
  case members =>
    intro g mem
    rw [filtered]
    obtain ⟨mem, differs⟩ | ⟨old, there, same, rfl⟩ | ⟨new, rfl⟩ :=
        of_mem_insert numbers.distinct mem
    · rw [if_neg (Ne.symm differs), List.append_nil]
      exact numbers.members g mem
    · have added : (cells count).map Cell.key = key ⟨old.cells, old.members ++ [count]⟩ := same.symm
      rw [if_pos added]
      exact congrArg (· ++ [count]) (numbers.members old there)
    · have none : ((List.range count).filter fun n =>
          (cells n).map Cell.key = (cells count).map Cell.key) = [] := by
        rw [List.filter_eq_nil_iff]
        intro n mem_n same
        refine new ?_
        rw [numbers.keys, List.mem_eraseDups, ← of_decide_eq_true same]
        exact List.mem_map_of_mem mem_n
      rw [key, none, if_pos rfl, List.nil_append]
  case cells =>
    intro g mem
    obtain ⟨mem, _⟩ | ⟨old, there, _, rfl⟩ | ⟨_, rfl⟩ := of_mem_insert numbers.distinct mem
    · exact numbers.cells g mem
    · obtain ⟨n, first, same⟩ := numbers.cells old there
      exact ⟨n, List.mem_head?_append_of_mem_head? first, same⟩
    · exact ⟨count, rfl, rfl⟩

def ofNumbers (cells : Nat → List Cell) (count : Nat) : List NumberedGroup :=
  (List.range count).foldl (fun groups n => insert (cells n) n groups) []

theorem ofNumbers_succ (cells : Nat → List Cell) (count : Nat) :
    ofNumbers cells (count + 1) = insert (cells count) count (ofNumbers cells count) := by
  rw [ofNumbers, List.range_succ, List.foldl_append]
  rfl

theorem numbers_ofNumbers (cells : Nat → List Cell) (count : Nat) :
    Numbers cells count (ofNumbers cells count) := by
  induction count with
  | zero => exact ⟨.refl _, List.nodup_nil, rfl, by simp [ofNumbers], by simp [ofNumbers]⟩
  | succ count ih =>
    rw [ofNumbers_succ]
    exact ih.insert

theorem ofNumbers_nil (count : Nat) :
    ofNumbers (fun _ => []) (count + 1) = [⟨[], List.range (count + 1)⟩] := by
  induction count with
  | zero => rfl
  | succ count ih =>
    rw [ofNumbers_succ, ih, List.range_succ (n := count + 1)]
    rfl

theorem foldl_insert_zipIdx (positions : List Nat) (rows : List Row) :
    rows.zipIdx.foldl (fun groups e => insert (positions.map e.1.cell) e.2 groups) [] =
      ofNumbers (fun n => positions.map (rows.getD n []).cell) rows.length := by
  have entries : rows.zipIdx = (List.range rows.length).map fun n => (rows.getD n [], n) := by
    refine List.ext_getElem (by simp) fun n within _ => ?_
    simp at within
    simp [within]
  rw [entries, List.foldl_map]
  rfl

end NumberedGroup

theorem Cell.key_eq_null {c : Cell} : c.key = .null ↔ c.isNull = true := by
  cases c with
  | float x =>
    refine iff_of_false ?_ Bool.false_ne_true
    rw [key]
    split <;> exact CellKey.noConfusion
  | _ => simp [key, isNull]

namespace Table

variable {t t' : Table} {columns : List String} {calls : List AggregateCall}
  {positions : List Nat} {part : List Nat}

def cellAt (t : Table) (n : Nat) (name : String) : Cell :=
  (t.rows.getD n []).named t.columns name

def keysAt (t : Table) (columns : List String) (n : Nat) : List CellKey :=
  columns.map fun name => (t.cellAt n name).key

/-- The numbers of all rows in one part for each list of keys under some columns, in the order in
which these lists are met first; without columns, in one part. -/
structure Partition (t : Table) (columns : List String) (parts : List (List Nat)) : Prop where
  whole : parts.flatten.Perm (List.range t.rows.length)
  ordered : ∀ part ∈ parts, part.Pairwise (· < ·)
  keyed : ∀ part ∈ parts, ∀ m ∈ part, ∀ n,
    n ∈ part ↔ n < t.rows.length ∧ t.keysAt columns n = t.keysAt columns m
  nulls : ∀ part ∈ parts, ∀ m ∈ part, (∀ name ∈ columns, (t.cellAt m name).isNull = true) →
    ∀ n, n ∈ part ↔ n < t.rows.length ∧ ∀ name ∈ columns, (t.cellAt n name).isNull = true
  first : columns ≠ [] → parts.map (fun part => part.head?.map (t.keysAt columns)) =
    ((List.range t.rows.length).map (t.keysAt columns)).eraseDups.map some
  single : columns = [] → parts = [List.range t.rows.length]

theorem keysAt_eq_of_null {m n : Nat} (null : ∀ name ∈ columns, (t.cellAt m name).isNull = true) :
    t.keysAt columns n = t.keysAt columns m ↔
      ∀ name ∈ columns, (t.cellAt n name).isNull = true := by
  unfold keysAt
  rw [List.map_inj_left]
  refine forall₂_congr fun name mem => ?_
  rw [Cell.key_eq_null.2 (null name mem), Cell.key_eq_null]

theorem Partition.of_keyed {parts : List (List Nat)}
    (whole : parts.flatten.Perm (List.range t.rows.length))
    (ordered : ∀ part ∈ parts, part.Pairwise (· < ·))
    (keyed : ∀ part ∈ parts, ∀ m ∈ part, ∀ n,
      n ∈ part ↔ n < t.rows.length ∧ t.keysAt columns n = t.keysAt columns m)
    (first : columns ≠ [] → parts.map (fun part => part.head?.map (t.keysAt columns)) =
      ((List.range t.rows.length).map (t.keysAt columns)).eraseDups.map some)
    (single : columns = [] → parts = [List.range t.rows.length]) : t.Partition columns parts where
  whole := whole
  ordered := ordered
  keyed := keyed
  nulls part mem m mem_m null n := by
    rw [keyed part mem m mem_m, keysAt_eq_of_null null]
  first := first
  single := single

theorem partition_single : t.Partition [] [List.range t.rows.length] := by
  refine .of_keyed ?_ ?_ ?_ (fun some => absurd rfl some) fun _ => rfl
  · rw [List.flatten_singleton]
  · simpa using List.pairwise_lt_range
  · simp [keysAt]

theorem map_cell_eq (found : columns.mapM t.indexOf = .ok positions) (n : Nat) :
    positions.map (t.rows.getD n []).cell = columns.map (t.cellAt n) :=
  map_cell_of_mapM (f := id) found (t.rows.getD n [])

theorem partition_numbers {groups : List NumberedGroup}
    (numbers : NumberedGroup.Numbers (fun n => columns.map (t.cellAt n)) t.rows.length groups)
    (some_columns : columns ≠ []) : t.Partition columns (groups.map NumberedGroup.members) := by
  have keys (n : Nat) : (columns.map (t.cellAt n)).map Cell.key = t.keysAt columns n :=
    List.map_map ..
  refine .of_keyed ?_ ?_ ?_ (fun _ => ?_) fun none => absurd none some_columns
  · rw [← List.flatMap_def]
    exact numbers.whole
  · refine List.forall_mem_map.2 fun g mem => ?_
    rw [numbers.members g mem]
    exact List.pairwise_lt_range.filter _
  · refine List.forall_mem_map.2 fun g mem m mem_m n => ?_
    rw [numbers.members g mem] at mem_m ⊢
    simp only [List.mem_filter, List.mem_range, decide_eq_true_eq, keys] at mem_m ⊢
    rw [mem_m.2]
  · have heads (g : NumberedGroup) (mem : g ∈ groups) :
        g.members.head?.map (t.keysAt columns) = some g.key := by
      obtain ⟨n, first, same⟩ := numbers.cells g mem
      rw [Option.mem_def.1 first, NumberedGroup.key, same, keys]
      rfl
    have met := numbers.keys
    simp only [keys] at met
    rw [List.map_map, ← met, List.map_map]
    exact List.map_congr_left heads

/-- The value of a call over the rows of a part; without an argument it is their number. -/
def evaluateOver (t : Table) (part : List Nat) (call : AggregateCall) : Except TableError Cell :=
  match call.argument with
  | some column => call.function.aggregate (part.map fun n => t.cellAt n column.text)
  | none => .ok (.int (Int64.ofNat part.length))

def partRow (t : Table) (columns : List String) (calls : List AggregateCall) (part : List Nat) :
    Except TableError Row :=
  (calls.mapM (t.evaluateOver part)).map (columns.map (t.cellAt (part.headD 0)) ++ ·)

theorem partRow_eq_ok {row : Row} : t.partRow columns calls part = .ok row ↔
    ∃ values, List.Forall₂ (fun call value => t.evaluateOver part call = .ok value) calls values ∧
      row = columns.map (t.cellAt (part.headD 0)) ++ values := by
  unfold partRow
  rw [map_eq_ok]
  exact exists_congr fun values => and_congr mapM_eq_ok eq_comm

theorem evaluate_eq_evaluateOver {call : AggregateCall} {position : Option Nat}
    (found : t.argumentIndex call = .ok position) :
    call.evaluate position (part.map fun n => t.rows.getD n []) = t.evaluateOver part call := by
  cases argument : call.argument with
  | some column =>
    rw [argumentIndex, argument] at found
    obtain ⟨i, at_position, same⟩ := bind_eq_ok.1 found
    rw [← pure_eq_ok.1 same, evaluateOver, argument, AggregateCall.evaluate, List.map_map]
    refine congrArg _ (List.map_congr_left fun n _ => ?_)
    exact cell_of_indexOf at_position _
  | none =>
    rw [argumentIndex, argument] at found
    rw [← pure_eq_ok.1 found, evaluateOver, argument, AggregateCall.evaluate, List.length_map]

theorem groupRow_eq_partRow {arguments : List (Option Nat)} {g : NumberedGroup}
    (found : calls.mapM t.argumentIndex = .ok arguments)
    (cells : g.cells = columns.map (t.cellAt (g.members.headD 0))) :
    groupRow calls arguments (g.toGroup t.rows) = t.partRow columns calls g.members := by
  have values : List.Forall₂ (fun entry call => entry.1.evaluate entry.2
      (g.members.map fun n => t.rows.getD n []) = t.evaluateOver g.members call)
      (calls.zip arguments) calls := by
    have related := mapM_eq_ok.1 found
    clear found
    induction related with
    | nil => exact .nil
    | cons first _ ih => exact .cons (evaluate_eq_evaluateOver first) ih
  unfold groupRow partRow
  rw [← mapM_eq_mapM values, ← cells]
  rfl

theorem groups_eq {groups : List NumberedGroup} (valid : t.Valid)
    (found : columns.mapM t.indexOf = .ok positions)
    (made : NumberedGroup.ofRows? positions t.rows = some groups) :
    (columns = [] ∧ groups = [⟨[], List.range t.rows.length⟩]) ∨
      (columns ≠ [] ∧
        groups = NumberedGroup.ofNumbers (fun n => columns.map (t.cellAt n)) t.rows.length) := by
  rw [NumberedGroup.ofRows?_eq fun row mem => valid.cells?_eq (f := id) mem found,
    NumberedGroup.foldl_insert_zipIdx] at made
  simp only [map_cell_eq found] at made
  have widths := (mapM_eq_ok.1 found).length_eq
  cases columns with
  | nil =>
    have none : positions = [] := List.eq_nil_of_length_eq_zero widths.symm
    refine .inl ⟨rfl, ?_⟩
    rw [none] at made
    cases rows : t.rows with
    | nil =>
      rw [rows] at made
      exact (Option.some.inj made).symm
    | cons row rest =>
      rw [rows] at made
      exact (Option.some.inj made).symm.trans (NumberedGroup.ofNumbers_nil rest.length)
  | cons column columns =>
    obtain ⟨position, positions, rfl⟩ := List.exists_cons_of_length_eq_add_one widths.symm
    exact .inr ⟨List.cons_ne_nil _ _, (Option.some.inj made).symm⟩

theorem exists_parts (valid : t.Valid) (found : columns.mapM t.indexOf = .ok positions) :
    ∃ groups, NumberedGroup.ofRows? positions t.rows = some groups ∧
      t.Partition columns (groups.map NumberedGroup.members) ∧
      ∀ calls arguments, calls.mapM t.argumentIndex = .ok arguments →
        (Group.ofRows positions t.rows).mapM (groupRow calls arguments) =
          (groups.map NumberedGroup.members).mapM (t.partRow columns calls) := by
  obtain ⟨groups, made, same, _⟩ :=
    NumberedGroup.exists_ofRows? fun row mem => valid.cells?_eq (f := id) mem found
  have parts : t.Partition columns (groups.map NumberedGroup.members) ∧
      ∀ g ∈ groups, g.cells = columns.map (t.cellAt (g.members.headD 0)) := by
    obtain ⟨rfl, rfl⟩ | ⟨some_columns, rfl⟩ := groups_eq valid found made
    · exact ⟨partition_single, by simp⟩
    · have numbers := NumberedGroup.numbers_ofNumbers (fun n => columns.map (t.cellAt n))
        t.rows.length
      refine ⟨partition_numbers numbers some_columns, fun g mem => ?_⟩
      obtain ⟨n, first, same⟩ := numbers.cells g mem
      rw [same, List.headD_eq_head?_getD, Option.mem_def.1 first, Option.getD_some]
  refine ⟨groups, made, parts.1, fun calls arguments found' => ?_⟩
  rw [← same, List.mapM_map, List.mapM_map]
  refine mapM_eq_mapM (List.forall₂_same.2 fun g mem => ?_)
  exact groupRow_eq_partRow found' (parts.2 g mem)

/-- The arguments of all calls are columns of a table. -/
def Reads (t : Table) (calls : List AggregateCall) : Prop :=
  ∀ call ∈ calls, ∀ ref ∈ call.argument, ref.text ∈ t.columns

theorem reads_iff : t.Reads calls ↔ ∃ arguments, calls.mapM t.argumentIndex = .ok arguments := by
  rw [exists_mapM_eq_ok]
  exact forall₂_congr fun call _ => exists_argumentIndex_eq_ok.symm

theorem reads_of_group_mismatch {f : AggregateFunction} {cell : Cell} (valid : t.Valid)
    (found : columns.mapM t.indexOf = .ok positions)
    (failed : t.group columns calls = .error (.typeMismatch f cell)) : t.Reads calls := by
  rw [reads_iff]
  cases found' : calls.mapM t.argumentIndex with
  | ok arguments => exact ⟨arguments, rfl⟩
  | error e =>
    obtain ⟨call, _, absent⟩ := exists_of_mapM_eq_error found'
    have other : t.group columns calls = .error e := by
      unfold group
      rw [validate_eq_ok_iff.2 valid, found, found']
      rfl
    rw [failed] at other
    cases other
    unfold argumentIndex at absent
    split at absent
    · obtain absent | ⟨_, _, absent⟩ := bind_eq_error.1 absent
      · unfold indexOf at absent
        split at absent <;> cases absent
      · cases absent
    · cases absent

theorem length_partRow {row : Row} (made : t.partRow columns calls part = .ok row) :
    row.length = (groupNames columns calls).length := by
  obtain ⟨values, evaluated, rfl⟩ := partRow_eq_ok.1 made
  simp [groupNames, evaluated.length_eq]

theorem exists_partRow_eq_ok : (∃ row, t.partRow columns calls part = .ok row) ↔
    ∀ call ∈ calls, ∃ value, t.evaluateOver part call = .ok value := by
  rw [← exists_mapM_eq_ok]
  constructor
  · rintro ⟨row, made⟩
    obtain ⟨values, evaluated, _⟩ := map_eq_ok.1 made
    exact ⟨values, evaluated⟩
  · rintro ⟨values, evaluated⟩
    exact ⟨_, map_eq_ok.2 ⟨values, evaluated, rfl⟩⟩

section Parts

variable {parts : List (List Nat)} (valid : t.Valid)
  (distinct : (groupNames columns calls).Nodup)
  (found : columns.mapM t.indexOf = .ok positions)
  (rows : ∀ arguments, calls.mapM t.argumentIndex = .ok arguments →
    (Group.ofRows positions t.rows).mapM (groupRow calls arguments) =
      parts.mapM (t.partRow columns calls))

include valid distinct found rows

theorem group_eq_ok_iff_parts (t' : Table) : t.group columns calls = .ok t' ↔
    t.Reads calls ∧ t'.columns = groupNames columns calls ∧
      List.Forall₂ (fun part row => t.partRow columns calls part = .ok row) parts t'.rows := by
  rw [group_eq_ok, reads_iff]
  constructor
  · rintro ⟨_, positions', arguments, made, found₂, found', all, last⟩
    cases found.symm.trans found₂
    obtain ⟨_, _, rfl⟩ := ofRows_eq_ok.1 last
    exact ⟨⟨arguments, found'⟩, rfl, mapM_eq_ok.1 ((rows arguments found').symm.trans all)⟩
  · rintro ⟨⟨arguments, found'⟩, names, all⟩
    refine ⟨valid, positions, arguments, t'.rows, found, found',
      (rows arguments found').trans (mapM_eq_ok.2 all), ofRows_eq_ok.2 ⟨distinct, ?_, ?_⟩⟩
    · intro row mem
      obtain ⟨part, _, made⟩ := exists_of_mem_forall₂ all mem
      exact length_partRow made
    · rw [← names]

theorem group_mismatch_iff_parts :
    (∃ f cell, t.group columns calls = .error (.typeMismatch f cell)) ↔ t.Reads calls ∧
      ∃ part ∈ parts, ∃ call ∈ calls, ∃ e, t.evaluateOver part call = .error e := by
  have answered := group_eq_ok_iff_parts valid distinct found rows
  constructor
  · rintro ⟨f, cell, failed⟩
    have reads := reads_of_group_mismatch valid found failed
    refine ⟨reads, by_contra fun none => ?_⟩
    push Not at none
    have values : ∀ part ∈ parts, ∃ row, t.partRow columns calls part = .ok row := by
      refine fun part mem => exists_partRow_eq_ok.2 fun call mem_call => ?_
      cases value : t.evaluateOver part call with
      | ok v => exact ⟨v, rfl⟩
      | error e => exact absurd value (none part mem call mem_call e)
    obtain ⟨made, all⟩ := exists_mapM_eq_ok.2 values
    have ok := (answered ⟨groupNames columns calls, made⟩).2 ⟨reads, rfl, mapM_eq_ok.1 all⟩
    rw [ok] at failed
    cases failed
  · rintro ⟨reads, part, mem, call, mem_call, e, failed⟩
    have keys := (exists_mapM_indexOf (f := id)).1 ⟨positions, found⟩
    obtain failed | ⟨_, t', ok⟩ | ⟨repeated, _⟩ := group_outcome valid keys reads
    · exact failed
    · obtain ⟨_, _, all⟩ := (answered t').1 ok
      have made := exists_mapM_eq_ok.1 ⟨_, mapM_eq_ok.2 all⟩ part mem
      obtain ⟨value, ok⟩ := exists_partRow_eq_ok.1 made call mem_call
      rw [failed] at ok
      cases ok
    · exact absurd distinct repeated

end Parts

theorem evaluateOver_eq_named {row : Row} (distinct : (groupNames columns calls).Nodup)
    (made : t.partRow columns calls part = .ok row) {call : AggregateCall} (mem : call ∈ calls) :
    t.evaluateOver part call = .ok (row.named (groupNames columns calls) call.label) := by
  obtain ⟨values, evaluated, rfl⟩ := partRow_eq_ok.1 made
  obtain ⟨_, labels, apart⟩ := List.nodup_append.1 distinct
  have absent : call.label ∉ columns := fun again =>
    apart _ again _ (List.mem_map_of_mem mem) rfl
  rw [groupNames, Row.named_append_of_notMem (by simp) absent]
  exact Row.named_of_forall₂ evaluated labels mem

theorem column_eq_named {name : String} (mem : name ∈ t.columns) :
    t.column name = .ok (t.rows.map fun row => row.named t.columns name) := by
  obtain ⟨i, found⟩ := exists_indexOf_eq_ok.2 mem
  rw [column, found]
  exact congrArg Except.ok (List.map_congr_left fun row _ => cell_of_indexOf found row)

theorem Partition.sum_lengths {parts : List (List Nat)} (partition : t.Partition columns parts) :
    (parts.map List.length).sum = t.rows.length := by
  rw [← List.length_flatten, partition.whole.length_eq, List.length_range]

theorem sum_ofNat (counts : List Nat) :
    (counts.map Int64.ofNat).sum = Int64.ofNat counts.sum ∧
      (counts.sum < 2 ^ 63 → ((counts.map Int64.ofNat).map Int64.toInt).sum = counts.sum) := by
  induction counts with
  | nil => exact ⟨rfl, fun _ => rfl⟩
  | cons count counts ih =>
    simp only [List.map_cons, List.sum_cons]
    refine ⟨by rw [ih.1, Int64.ofNat_add], fun within => ?_⟩
    rw [ih.2 (by omega), Int64.toInt_ofNat_of_lt (by omega), Int.natCast_add]

/-- Grouping partitions the rows of a table. A table of groups has one row for each part, with the
group cells of its first row and the values of the calls over the part; there is none if a call has
no value over some part. The counts of rows add up to the number of all rows. -/
theorem group_partitions (valid : t.Valid) (keys : ∀ name ∈ columns, name ∈ t.columns)
    (distinct : (groupNames columns calls).Nodup) :
    ∃ positions groups, columns.mapM t.indexOf = .ok positions ∧
      NumberedGroup.ofRows? positions t.rows = some groups ∧
      t.Partition columns (groups.map NumberedGroup.members) ∧
      (∀ t', t.group columns calls = .ok t' ↔
        t.Reads calls ∧ t'.columns = groupNames columns calls ∧
        List.Forall₂ (fun part row => ∃ values,
          List.Forall₂ (fun call value => t.evaluateOver part call = .ok value) calls values ∧
          row = columns.map (t.cellAt (part.headD 0)) ++ values)
          (groups.map NumberedGroup.members) t'.rows) ∧
      (∀ t', t.group columns calls = .ok t' → ∀ call ∈ calls, call.argument = none →
        ∃ counts : List Int64, t'.column call.label = .ok (counts.map Cell.int) ∧
          counts.sum = Int64.ofNat t.rows.length ∧
          (t.rows.length < 2 ^ 63 → (counts.map Int64.toInt).sum = t.rows.length)) ∧
      ((∃ f cell, t.group columns calls = .error (.typeMismatch f cell)) ↔ t.Reads calls ∧
        ∃ part ∈ groups.map NumberedGroup.members, ∃ call ∈ calls, ∃ e,
          t.evaluateOver part call = .error e) := by
  obtain ⟨positions, found⟩ := (exists_mapM_indexOf (f := id)).2 keys
  obtain ⟨groups, made, partition, rows⟩ := exists_parts valid found
  have answered := group_eq_ok_iff_parts valid distinct found (rows calls)
  have mismatch := group_mismatch_iff_parts valid distinct found (rows calls)
  refine ⟨positions, groups, found, made, partition, fun t' => ?_, ?_, mismatch⟩
  · simp only [← partRow_eq_ok]
    exact answered t'
  · intro t' ok call mem plain
    obtain ⟨_, names, all⟩ := (answered t').1 ok
    let lengths := (groups.map NumberedGroup.members).map List.length
    have labelled : call.label ∈ t'.columns :=
      names ▸ List.mem_append_right _ (List.mem_map_of_mem mem)
    have cells : t'.rows.map (fun row => row.named t'.columns call.label) =
        (lengths.map Int64.ofNat).map Cell.int := by
      rw [List.map_map, List.map_map, ← List.forall₂_eq_eq_eq, List.forall₂_map_left_iff,
        List.forall₂_map_right_iff]
      refine all.flip.imp fun row part made => ?_
      have value := evaluateOver_eq_named distinct made mem
      rw [evaluateOver, plain, ← names] at value
      exact (Except.ok.inj value).symm
    have sums := sum_ofNat lengths
    rw [partition.sum_lengths] at sums
    exact ⟨_, (column_eq_named labelled).trans (congrArg _ cells), sums.1, sums.2⟩

def tally : Table :=
  ⟨["k", "v"], [[.null, .int 1], [.text "a", .int 2], [.null, .null]]⟩

def tallyCalls : List AggregateCall :=
  [⟨.count, none⟩, ⟨.sum, some (.bare "v")⟩]

theorem group_partitions_tally : ∃ groups t',
    NumberedGroup.ofRows? [0] tally.rows = some groups ∧
      tally.Partition ["k"] (groups.map NumberedGroup.members) ∧
      tally.group ["k"] tallyCalls = .ok t' ∧
      ∃ counts : List Int64, t'.column (AggregateCall.label ⟨.count, none⟩) =
        .ok (counts.map Cell.int) ∧ (counts.map Int64.toInt).sum = 3 := by
  have valid : tally.Valid := ⟨by decide, by decide⟩
  have distinct : (groupNames ["k"] tallyCalls).Nodup := by decide
  obtain ⟨positions, groups, found, made, partition, _, counted, _⟩ :=
    group_partitions valid (by decide) distinct
  have runs : (tally.group ["k"] tallyCalls).toOption.any (fun _ => true) = true := by
    decide +kernel
  obtain ⟨t', ok, _⟩ := exists_of_any_toOption runs
  obtain ⟨counts, shown, _, total⟩ := counted t' ok _ List.mem_cons_self rfl
  cases found
  exact ⟨groups, t', made, partition, ok, counts, shown, total (by decide)⟩

end Table

end TablePlan
