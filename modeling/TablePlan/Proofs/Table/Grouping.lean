import TablePlan.Proofs.Table.Operations

/-!
Outcomes of grouping. A valid table with the columns that are read either gives one column for each
key and each call or fails with a cell that some call has no aggregate for.
-/

namespace TablePlan

open Success

namespace AggregateFunction

theorem total_eq_error {f : AggregateFunction} {start : Total} {cells : List Cell}
    {e : TableError} (failed : f.total start cells = .error e) :
    ∃ cell ∈ cells, e = .typeMismatch f cell := by
  induction cells generalizing start with
  | nil => cases failed
  | cons cell cells ih =>
    unfold total at failed
    split at failed
    · obtain ⟨other, mem, rfl⟩ := ih failed
      exact ⟨other, List.mem_cons_of_mem _ mem, rfl⟩
    · injection failed with same
      exact ⟨cell, List.mem_cons_self, same.symm⟩

theorem extreme_eq_error {f : AggregateFunction} {wins : Ordering} {best : Cell}
    {cells : List Cell} {e : TableError} (failed : f.extreme wins best cells = .error e) :
    ∃ cell ∈ cells, e = .typeMismatch f cell := by
  induction cells generalizing best with
  | nil => cases failed
  | cons cell cells ih =>
    unfold extreme at failed
    split at failed
    · obtain ⟨other, mem, rfl⟩ := ih failed
      exact ⟨other, List.mem_cons_of_mem _ mem, rfl⟩
    · injection failed with same
      exact ⟨cell, List.mem_cons_self, same.symm⟩

theorem aggregate_eq_error {f : AggregateFunction} {cells : List Cell} {e : TableError}
    (failed : f.aggregate cells = .error e) : ∃ cell ∈ cells, e = .typeMismatch f cell := by
  have present {cell : Cell} (mem : cell ∈ cells.filter fun cell => !cell.isNull) :
      cell ∈ cells := (List.mem_filter.1 mem).1
  have of_total (failed : f.total .zero (cells.filter fun cell => !cell.isNull) = .error e) :
      ∃ cell ∈ cells, e = .typeMismatch f cell := by
    obtain ⟨cell, mem, rfl⟩ := total_eq_error failed
    exact ⟨cell, present mem, rfl⟩
  have of_map {g : Total → Cell} (failed : (f.total .zero
      (cells.filter fun cell => !cell.isNull)).map g = .error e) :
      f.total .zero (cells.filter fun cell => !cell.isNull) = .error e := by
    revert failed
    cases f.total .zero (cells.filter fun cell => !cell.isNull) <;> simp [Except.map]
  unfold aggregate at failed
  dsimp only at failed
  split at failed
  · cases failed
  · cases failed
  · exact of_total (of_map failed)
  · exact of_total (of_map failed)
  all_goals
    rename_i first rest split
    obtain ⟨cell, mem, rfl⟩ := extreme_eq_error failed
    exact ⟨cell, present (split ▸ List.mem_cons_of_mem _ mem), rfl⟩

end AggregateFunction

theorem AggregateCall.evaluate_eq_error {call : AggregateCall} {position : Option Nat}
    {members : List Row} {e : TableError} (failed : call.evaluate position members = .error e) :
    ∃ f cell, e = .typeMismatch f cell := by
  unfold evaluate at failed
  split at failed
  · obtain ⟨cell, _, rfl⟩ := AggregateFunction.aggregate_eq_error failed
    exact ⟨_, cell, rfl⟩
  · cases failed

namespace Group

theorem length_cells_insertRow {positions : List Nat} {row : Row} {groups : List Group}
    (widths : ∀ g ∈ groups, g.cells.length = positions.length) :
    ∀ g ∈ insertRow positions row groups, g.cells.length = positions.length := by
  induction groups with
  | nil => simp [insertRow]
  | cons first groups ih =>
    rw [List.forall_mem_cons] at widths
    unfold insertRow
    split
    · exact List.forall_mem_cons.2 ⟨widths.1, widths.2⟩
    · exact List.forall_mem_cons.2 ⟨widths.1, ih widths.2⟩

theorem length_cells_ofRows {positions : List Nat} {rows : List Row} :
    ∀ g ∈ ofRows positions rows, g.cells.length = positions.length := by
  have grow (groups : List Group) (widths : ∀ g ∈ groups, g.cells.length = positions.length) :
      ∀ g ∈ rows.foldl (fun groups row => insertRow positions row groups) groups,
        g.cells.length = positions.length := by
    induction rows generalizing groups with
    | nil => exact widths
    | cons row rows ih => exact ih _ (length_cells_insertRow widths)
  unfold ofRows
  split
  · rename_i empty
    simp only [Bool.and_eq_true, List.isEmpty_iff] at empty
    simp [empty.1]
  · exact grow [] (by simp)

end Group

namespace Table

def groupNames (columns : List String) (calls : List AggregateCall) : List String :=
  columns ++ calls.map AggregateCall.label

theorem exists_argumentIndex_eq_ok {t : Table} {call : AggregateCall} :
    (∃ position, t.argumentIndex call = .ok position) ↔
      ∀ ref ∈ call.argument, ref.text ∈ t.columns := by
  unfold argumentIndex
  split
  · rename_i column given
    simp only [given, Option.mem_some_iff, forall_eq', ← exists_indexOf_eq_ok, bind_eq_ok]
    exact ⟨fun ⟨_, i, found, _⟩ => ⟨i, found⟩, fun ⟨i, found⟩ => ⟨some i, i, found, rfl⟩⟩
  · rename_i none
    simp only [none, Option.mem_def, reduceCtorEq, false_implies, implies_true, iff_true]
    exact ⟨_, rfl⟩

def groupRow (calls : List AggregateCall) (arguments : List (Option Nat)) (g : Group) :
    Except TableError Row := do
  let values ← (calls.zip arguments).mapM fun (call, position) =>
    call.evaluate position g.members.toList
  return g.cells ++ values

theorem length_groupRow {calls : List AggregateCall} {arguments : List (Option Nat)} {g : Group}
    {row : Row} (widths : arguments.length = calls.length)
    (made : groupRow calls arguments g = .ok row) :
    row.length = g.cells.length + calls.length := by
  obtain ⟨values, evaluated, same⟩ := bind_eq_ok.1 made
  have count := (mapM_eq_ok.1 evaluated).length_eq
  rw [List.length_zip, widths, Nat.min_self] at count
  rw [← pure_eq_ok.1 same, List.length_append, count]

theorem groupRow_eq_error {calls : List AggregateCall} {arguments : List (Option Nat)}
    {g : Group} {e : TableError} (failed : groupRow calls arguments g = .error e) :
    ∃ f cell, e = .typeMismatch f cell := by
  obtain failed | ⟨values, _, failed⟩ := bind_eq_error.1 failed
  · obtain ⟨⟨call, position⟩, _, failed⟩ := exists_of_mapM_eq_error failed
    exact AggregateCall.evaluate_eq_error failed
  · cases failed

theorem group_eq_ok {t t' : Table} {columns : List String} {calls : List AggregateCall} :
    t.group columns calls = .ok t' ↔ t.Valid ∧ ∃ positions arguments rows,
      columns.mapM t.indexOf = .ok positions ∧ calls.mapM t.argumentIndex = .ok arguments ∧
      (Group.ofRows positions t.rows).mapM (groupRow calls arguments) = .ok rows ∧
      ofRows (groupNames columns calls) rows = .ok t' := by
  unfold group
  rw [check_eq_ok, validate_eq_ok_iff, bind_eq_ok]
  refine and_congr_right fun _ => exists_congr fun positions => ?_
  rw [bind_eq_ok]
  constructor
  · rintro ⟨found, arguments, found', made⟩
    obtain ⟨rows, made, last⟩ := bind_eq_ok.1 made
    exact ⟨arguments, rows, found, found', made, last⟩
  · rintro ⟨arguments, rows, found, found', made, last⟩
    exact ⟨found, arguments, found', bind_eq_ok.2 ⟨rows, made, last⟩⟩

theorem length_of_mem_groupRows {t : Table} {columns : List String} {calls : List AggregateCall}
    {positions : List Nat} {arguments : List (Option Nat)} {rows : List Row}
    (found : columns.mapM t.indexOf = .ok positions)
    (found' : calls.mapM t.argumentIndex = .ok arguments)
    (made : (Group.ofRows positions t.rows).mapM (groupRow calls arguments) = .ok rows) :
    ∀ row ∈ rows, row.length = (groupNames columns calls).length := by
  intro row mem
  obtain ⟨g, mem_g, made_g⟩ := exists_of_mem_mapM made mem
  rw [length_groupRow (mapM_eq_ok.1 found').length_eq.symm made_g,
    Group.length_cells_ofRows g mem_g, ← (mapM_eq_ok.1 found).length_eq]
  simp [groupNames]

theorem of_group_eq_ok {t t' : Table} {columns : List String} {calls : List AggregateCall}
    (made : t.group columns calls = .ok t') :
    (∀ name ∈ columns, name ∈ t.columns) ∧
      (∀ call ∈ calls, ∀ ref ∈ call.argument, ref.text ∈ t.columns) ∧
      t'.columns = groupNames columns calls ∧ t'.Valid := by
  obtain ⟨_, positions, arguments, rows, found, found', _, last⟩ := group_eq_ok.1 made
  obtain ⟨distinct, widths, rfl⟩ := ofRows_eq_ok.1 last
  refine ⟨?_, ?_, rfl, ⟨distinct, widths⟩⟩
  · exact (exists_mapM_indexOf (f := id)).1 ⟨positions, found⟩
  · intro call mem
    exact exists_argumentIndex_eq_ok.1 (exists_mapM_eq_ok.1 ⟨arguments, found'⟩ call mem)

theorem group_eq_of_found {t : Table} {columns : List String} {calls : List AggregateCall}
    {positions : List Nat} {arguments : List (Option Nat)} (valid : t.Valid)
    (found : columns.mapM t.indexOf = .ok positions)
    (found' : calls.mapM t.argumentIndex = .ok arguments) : t.group columns calls =
      (Group.ofRows positions t.rows).mapM (groupRow calls arguments) >>=
        ofRows (groupNames columns calls) := by
  unfold group
  rw [validate_eq_ok_iff.2 valid, found, found']
  rfl

theorem group_outcome {t : Table} {columns : List String} {calls : List AggregateCall}
    (valid : t.Valid) (keys : ∀ name ∈ columns, name ∈ t.columns)
    (reads : ∀ call ∈ calls, ∀ ref ∈ call.argument, ref.text ∈ t.columns) :
    (∃ f cell, t.group columns calls = .error (.typeMismatch f cell)) ∨
      ((groupNames columns calls).Nodup ∧ ∃ t', t.group columns calls = .ok t') ∨
      (¬ (groupNames columns calls).Nodup ∧
        ∃ name, t.group columns calls = .error (.duplicateColumn name)) := by
  obtain ⟨positions, found⟩ := (exists_mapM_indexOf (f := id)).2 keys
  obtain ⟨arguments, found'⟩ : ∃ arguments, calls.mapM t.argumentIndex = .ok arguments :=
    exists_mapM_eq_ok.2 fun call mem => exists_argumentIndex_eq_ok.2 (reads call mem)
  rw [group_eq_of_found valid found found']
  cases made : (Group.ofRows positions t.rows).mapM (groupRow calls arguments) with
  | ok rows =>
    change _ ∨ (_ ∧ ∃ t', ofRows _ rows = .ok t') ∨ (_ ∧ ∃ name, ofRows _ rows = .error _)
    by_cases distinct : (groupNames columns calls).Nodup
    · have widths := length_of_mem_groupRows found found' made
      exact .inr (.inl ⟨distinct, _, ofRows_eq_ok.2 ⟨distinct, widths, rfl⟩⟩)
    · exact .inr (.inr ⟨distinct, ofRows_eq_duplicate distinct rows⟩)
  | error e =>
    obtain ⟨g, _, failed⟩ := exists_of_mapM_eq_error made
    obtain ⟨f, cell, rfl⟩ := groupRow_eq_error failed
    exact .inl ⟨f, cell, rfl⟩

end Table

end TablePlan
