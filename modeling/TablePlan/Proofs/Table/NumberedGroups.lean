import TablePlan.Proofs.Table.Reading

/-!
Groups that hold numbers of rows. The slot of a group among the others is remembered under its key
when the group is opened. Every read of a cell, of a row and of a slot is checked, and none of them
fails.
-/

namespace TablePlan

open Success

structure NumberedGroup where
  cells : List Cell
  members : List Nat

namespace NumberedGroup

def key (g : NumberedGroup) : List CellKey :=
  g.cells.map Cell.key

def toGroup (rows : List Row) (g : NumberedGroup) : Group :=
  ⟨g.key, g.cells, (g.members.map fun n => rows.getD n []).toArray⟩

def insert (cells : List Cell) (number : Nat) : List NumberedGroup → List NumberedGroup
  | [] => [⟨cells, [number]⟩]
  | g :: gs =>
    if g.key = cells.map Cell.key then ⟨g.cells, g.members ++ [number]⟩ :: gs
    else g :: insert cells number gs

variable {groups : List NumberedGroup}

theorem insertRow_map_toGroup {rows : List Row} {row : Row} {number : Nat}
    (there : rows[number]? = some row)
    (positions : List Nat) : Group.insertRow positions row (groups.map (toGroup rows)) =
      (insert (positions.map row.cell) number groups).map (toGroup rows) := by
  have keys : (positions.map row.cell).map Cell.key = positions.map fun i => (row.cell i).key :=
    List.map_map ..
  induction groups with
  | nil => simp [insert, Group.insertRow, toGroup, key, there]
  | cons g groups ih =>
    rw [List.map_cons, Group.insertRow, insert, keys, ih]
    by_cases same : g.key = positions.map fun i => (row.cell i).key
    · refine (if_pos same).trans ?_
      rw [if_pos same]
      simp [toGroup, key, there]
    · refine (if_neg same).trans ?_
      rw [if_neg same, List.map_cons]

theorem isEmpty_insert (cells : List Cell) (number : Nat) :
    (insert cells number groups).isEmpty = false := by
  cases groups with
  | nil => rfl
  | cons g groups =>
    rw [insert]
    split <;> rfl

theorem forall_members_insert {p : Nat → Prop} {number : Nat} (added : p number)
    (cells : List Cell) (members : ∀ g ∈ groups, ∀ n ∈ g.members, p n) :
    ∀ g ∈ insert cells number groups, ∀ n ∈ g.members, p n := by
  induction groups with
  | nil => simpa [insert] using added
  | cons g groups ih =>
    rw [List.forall_mem_cons] at members
    unfold insert
    split
    · refine List.forall_mem_cons.2 ⟨fun n mem => ?_, members.2⟩
      obtain mem | mem := List.mem_append.1 mem
      · exact members.1 n mem
      · exact List.mem_singleton.1 mem ▸ added
    · exact List.forall_mem_cons.2 ⟨members.1, ih members.2⟩

theorem insert_of_none {cells : List Cell}
    (new : groups.findIdx? (·.key == cells.map Cell.key) = none) (number : Nat) :
    insert cells number groups = groups ++ [⟨cells, [number]⟩] := by
  induction groups with
  | nil => rfl
  | cons g groups ih =>
    rw [List.findIdx?_cons] at new
    split at new
    · cases new
    · rename_i other
      rw [insert, if_neg (by simpa using other), ih (by simpa using new), List.cons_append]

theorem insert_of_some {cells : List Cell} {slot : Nat}
    (old : groups.findIdx? (·.key == cells.map Cell.key) = some slot) (number : Nat) :
    ∃ g, groups[slot]? = some g ∧ g.key = cells.map Cell.key ∧
      insert cells number groups = groups.set slot ⟨g.cells, g.members ++ [number]⟩ := by
  induction groups generalizing slot with
  | nil => cases old
  | cons g groups ih =>
    rw [List.findIdx?_cons] at old
    split at old
    · rename_i same
      cases old
      have same : g.key = cells.map Cell.key := by simpa using same
      exact ⟨g, rfl, same, if_pos same⟩
    · rename_i other
      obtain ⟨later, at_later, rfl⟩ := Option.map_eq_some_iff.1 old
      obtain ⟨g', found, same, inserted⟩ := ih at_later
      refine ⟨g', found, same, ?_⟩
      rw [insert, if_neg (by simpa using other), inserted, List.set_cons_succ]

theorem findIdx?_set {slot : Nat} {g g' : NumberedGroup} (there : groups[slot]? = some g)
    (same : g'.key = g.key) (k : List CellKey) :
    (groups.set slot g').findIdx? (·.key == k) = groups.findIdx? (·.key == k) := by
  have keys : (groups.set slot g').map key = groups.map key := by
    obtain ⟨within, rfl⟩ := List.getElem?_eq_some_iff.1 there
    have within' : slot < (groups.map key).length := by simpa using within
    have kept : (groups.map key)[slot] = groups[slot].key := List.getElem_map key
    rw [List.map_set, same, ← kept, List.set_getElem_self]
  have search (gs : List NumberedGroup) :
      gs.findIdx? (·.key == k) = (gs.map key).findIdx? (· == k) := by
    rw [List.findIdx?_map]
    rfl
  rw [search, search, keys]

end NumberedGroup

structure GroupSlots where
  slots : Std.HashMap (List CellKey) Nat
  groups : List NumberedGroup

namespace GroupSlots

def Tracks (state : GroupSlots) : Prop :=
  ∀ key, state.slots[key]? = state.groups.findIdx? (·.key == key)

/-- Adds a number to the group in the slot of its key, or opens a group in a new slot. -/
def add? (state : GroupSlots) (cells : List Cell) (number : Nat) : Option GroupSlots :=
  match state.slots[cells.map Cell.key]? with
  | some slot => do
    let g ← state.groups[slot]?
    return ⟨state.slots, state.groups.set slot ⟨g.cells, g.members ++ [number]⟩⟩
  | none => some ⟨state.slots.insert (cells.map Cell.key) state.groups.length,
      state.groups ++ [⟨cells, [number]⟩]⟩

theorem exists_add? {state : GroupSlots} (tracks : state.Tracks) (cells : List Cell)
    (number : Nat) : ∃ next, state.add? cells number = some next ∧ next.Tracks ∧
      next.groups = NumberedGroup.insert cells number state.groups := by
  unfold add?
  rw [tracks]
  cases found : state.groups.findIdx? (·.key == cells.map Cell.key) with
  | none =>
    refine ⟨_, rfl, fun key => ?_, (NumberedGroup.insert_of_none found number).symm⟩
    dsimp only
    rw [Std.HashMap.getElem?_insert, List.findIdx?_append]
    by_cases same : cells.map Cell.key = key
    · subst same
      rw [found]
      simp [NumberedGroup.key]
    · simp [same, NumberedGroup.key, tracks key]
  | some slot =>
    obtain ⟨g, there, same, inserted⟩ := NumberedGroup.insert_of_some found number
    dsimp only
    rw [there]
    have kept : NumberedGroup.key ⟨g.cells, g.members ++ [number]⟩ = g.key := rfl
    exact ⟨_, rfl, fun key => (tracks key).trans (NumberedGroup.findIdx?_set there kept key).symm,
      inserted.symm⟩

def addRows? (positions : List Nat) : GroupSlots → List (Row × Nat) → Option GroupSlots
  | state, [] => some state
  | state, (row, number) :: rows => do
    let cells ← positions.mapM row.cell?
    let next ← state.add? cells number
    addRows? positions next rows

theorem exists_addRows? {positions : List Nat} {rows : List (Row × Nat)}
    (there : ∀ e ∈ rows, positions.mapM e.1.cell? = some (positions.map e.1.cell))
    {state : GroupSlots} (tracks : state.Tracks) :
    ∃ next, addRows? positions state rows = some next ∧ next.groups =
      rows.foldl (fun groups e => NumberedGroup.insert (positions.map e.1.cell) e.2 groups)
        state.groups := by
  induction rows generalizing state with
  | nil => exact ⟨state, rfl, rfl⟩
  | cons e rows ih =>
    rw [List.forall_mem_cons] at there
    obtain ⟨next, added, tracks, inserted⟩ := exists_add? tracks (positions.map e.1.cell) e.2
    obtain ⟨last, more, groups⟩ := ih there.2 tracks
    refine ⟨last, ?_, by rw [groups, inserted, List.foldl_cons]⟩
    rw [addRows?, there.1]
    exact (congrArg (· >>= fun next => addRows? positions next rows) added).trans more

end GroupSlots

namespace NumberedGroup

def ofRows? (positions : List Nat) (rows : List Row) : Option (List NumberedGroup) := do
  let state ← GroupSlots.addRows? positions ⟨∅, []⟩ rows.zipIdx
  return if positions.isEmpty && state.groups.isEmpty then [⟨[], []⟩] else state.groups

variable {rows : List Row}

theorem of_foldl_insert (positions : List Nat) {entries : List (Row × Nat)}
    (there : ∀ e ∈ entries, rows[e.2]? = some e.1) {start : List NumberedGroup}
    (within : ∀ g ∈ start, ∀ n ∈ g.members, n < rows.length) :
    let groups := entries.foldl (fun groups e => insert (positions.map e.1.cell) e.2 groups) start
    groups.map (toGroup rows) = (entries.map Prod.fst).foldl
        (fun groups row => Group.insertRow positions row groups) (start.map (toGroup rows)) ∧
      (∀ g ∈ groups, ∀ n ∈ g.members, n < rows.length) ∧
      groups.isEmpty = (start.isEmpty && entries.isEmpty) := by
  induction entries generalizing start with
  | nil => exact ⟨rfl, within, by simp⟩
  | cons e entries ih =>
    rw [List.forall_mem_cons] at there
    have added : e.2 < rows.length := (List.getElem?_eq_some_iff.1 there.1).1
    obtain ⟨same, members, empty⟩ := ih there.2
      (forall_members_insert (p := (· < rows.length)) added (positions.map e.1.cell) within)
    refine ⟨?_, members, ?_⟩
    · rw [List.foldl_cons, same, List.map_cons, List.foldl_cons, insertRow_map_toGroup there.1]
    · rw [List.foldl_cons, empty, isEmpty_insert]
      simp

theorem ofRows?_eq {positions : List Nat}
    (there : ∀ row ∈ rows, positions.mapM row.cell? = some (positions.map row.cell)) :
    ofRows? positions rows = some (if positions.isEmpty && rows.isEmpty then [⟨[], []⟩] else
      rows.zipIdx.foldl (fun groups e => insert (positions.map e.1.cell) e.2 groups) []) := by
  have tracks : GroupSlots.Tracks ⟨∅, []⟩ := fun key => Std.HashMap.getElem?_empty
  obtain ⟨state, made, groups⟩ := GroupSlots.exists_addRows?
    (fun e mem => there e.1 (List.fst_mem_of_mem_zipIdx mem)) tracks
  have unnumbered : ∀ g ∈ ([] : List NumberedGroup), ∀ n ∈ g.members, n < rows.length := by simp
  obtain ⟨_, _, empty⟩ := of_foldl_insert positions
    (fun e mem => List.mem_zipIdx_iff_getElem?.1 mem) unnumbered
  rw [← groups] at empty
  have fresh : state.groups.isEmpty = rows.isEmpty := empty.trans (by cases rows <;> rfl)
  rw [ofRows?, made, ← groups, ← fresh]
  rfl

theorem exists_ofRows? {positions : List Nat}
    (there : ∀ row ∈ rows, positions.mapM row.cell? = some (positions.map row.cell)) :
    ∃ groups, ofRows? positions rows = some groups ∧
      groups.map (toGroup rows) = Group.ofRows positions rows ∧
      ∀ g ∈ groups, ∀ n ∈ g.members, n < rows.length := by
  have unnumbered : ∀ g ∈ ([] : List NumberedGroup), ∀ n ∈ g.members, n < rows.length := by simp
  obtain ⟨same, members, _⟩ := of_foldl_insert positions
    (fun e mem => List.mem_zipIdx_iff_getElem?.1 mem) unnumbered
  rw [List.zipIdx_map_fst] at same
  refine ⟨_, ofRows?_eq there, ?_, ?_⟩
  · rw [Group.ofRows]
    split
    · rfl
    · exact same
  · split
    · simp
    · exact members

end NumberedGroup

namespace AggregateCall

def evaluate? (rows : List Row) (call : AggregateCall) (position : Option Nat)
    (numbers : List Nat) : Reading Cell :=
  match position with
  | some i => do
    let cells ← Reading.ofOption (numbers.mapM fun n => do
      let row ← rows[n]?
      row.cell? i)
    Reading.ofExcept (call.function.aggregate cells)
  | none => Reading.ofExcept (.ok (.int (Int64.ofNat numbers.length)))

theorem evaluate?_eq {rows : List Row} {call : AggregateCall} {position : Option Nat}
    {numbers : List Nat} (within : ∀ n ∈ numbers, n < rows.length)
    (there : ∀ i ∈ position, ∀ row ∈ rows, row.cell? i = some (row.cell i)) :
    call.evaluate? rows position numbers =
      Reading.ofExcept (call.evaluate position (numbers.map fun n => rows.getD n [])) := by
  cases position with
  | none => rw [evaluate?, evaluate, List.length_map]
  | some i =>
    have cells : (numbers.mapM fun n => do
        let row ← rows[n]?
        row.cell? i) = some (numbers.map fun n => (rows.getD n []).cell i) := by
      refine mapM_eq_some_map fun n mem => ?_
      rw [List.getD_eq_getElem?_getD, List.getElem?_eq_getElem (within n mem)]
      exact there i rfl _ (List.getElem_mem _)
    rw [evaluate?, Reading.ofOption_bind cells, evaluate, List.map_map]
    rfl

end AggregateCall

namespace Table

def groupRow? (rows : List Row) (calls : List AggregateCall) (arguments : List (Option Nat))
    (g : NumberedGroup) : Reading Row := do
  let values ← (calls.zip arguments).mapM fun (call, position) =>
    call.evaluate? rows position g.members
  return g.cells ++ values

def group? (t : Table) (columns : List String) (calls : List AggregateCall) : Reading Table := do
  Reading.ofExcept t.validate
  let positions ← Reading.ofExcept (columns.mapM t.indexOf)
  let arguments ← Reading.ofExcept (calls.mapM t.argumentIndex)
  let groups ← Reading.ofOption (NumberedGroup.ofRows? positions t.rows)
  let rows ← groups.mapM (groupRow? t.rows calls arguments)
  Reading.ofExcept (ofRows (columns ++ calls.map AggregateCall.label) rows)

theorem Valid.cell?_argument {t : Table} (valid : t.Valid) {row : Row} (mem : row ∈ t.rows)
    {call : AggregateCall} {i : Nat} (found : t.argumentIndex call = .ok (some i)) :
    row.cell? i = some (row.cell i) := by
  unfold argumentIndex at found
  split at found
  · obtain ⟨j, at_position, same⟩ := bind_eq_ok.1 found
    cases pure_eq_ok.1 same
    exact valid.cell?_eq mem at_position
  · cases found

theorem groupRow?_eq {rows : List Row} {calls : List AggregateCall}
    {arguments : List (Option Nat)} {g : NumberedGroup}
    (within : ∀ n ∈ g.members, n < rows.length)
    (there : ∀ position ∈ arguments, ∀ i ∈ position, ∀ row ∈ rows,
      row.cell? i = some (row.cell i)) :
    groupRow? rows calls arguments g =
      Reading.ofExcept (groupRow calls arguments (g.toGroup rows)) := by
  have values : ((calls.zip arguments).mapM fun (call, position) =>
      call.evaluate? rows position g.members) =
      Reading.ofExcept ((calls.zip arguments).mapM fun (call, position) =>
        call.evaluate position (g.toGroup rows).members.toList) :=
    Reading.mapM_ofExcept fun entry mem =>
      AggregateCall.evaluate?_eq within (there entry.2 (List.of_mem_zip mem).2)
  unfold groupRow? groupRow
  rw [values]
  exact Reading.ofExcept_bind fun _ _ => rfl

theorem group?_eq (t : Table) (columns : List String) (calls : List AggregateCall) :
    t.group? columns calls = Reading.ofExcept (t.group columns calls) := by
  unfold group? group
  refine Reading.ofExcept_bind fun _ validated => ?_
  refine Reading.ofExcept_bind fun positions found => ?_
  refine Reading.ofExcept_bind fun arguments found' => ?_
  have valid := validate_eq_ok_iff.1 validated
  have keys (row : Row) (mem : row ∈ t.rows) :
      positions.mapM row.cell? = some (positions.map row.cell) :=
    valid.cells?_eq (f := id) mem found
  obtain ⟨groups, made, same, within⟩ := NumberedGroup.exists_ofRows? keys
  rw [Reading.ofOption_bind made]
  have rows : groups.mapM (groupRow? t.rows calls arguments) =
      Reading.ofExcept ((Group.ofRows positions t.rows).mapM (groupRow calls arguments)) := by
    rw [← same, List.mapM_map]
    refine Reading.mapM_ofExcept fun g mem => groupRow?_eq (within g mem) ?_
    intro position mem_position i at_i row mem_row
    cases Option.mem_def.1 at_i
    obtain ⟨call, _, at_position⟩ := exists_of_mem_mapM found' mem_position
    exact valid.cell?_argument mem_row at_position
  rw [rows]
  exact Reading.ofExcept_bind fun _ _ => rfl

end Table

end TablePlan
