import TablePlan.Execution
import TablePlan.Proofs.Success
import TablePlan.Proofs.Table.Matching
import TablePlan.Proofs.Table.Row
import Mathlib.Data.List.Nodup

/-!
What the table operations answer. Each of them succeeds exactly when its tables are valid, the
columns that it reads exist and the columns that it makes are distinct; its rows are given here
through the names of columns, without positions.
-/

namespace TablePlan

open Success

namespace Row

theorem length_nulls (width : Nat) : (nulls width).length = width :=
  List.length_replicate

def namedOrder (columns : List String) : List SortKey → Row → Row → Ordering
  | [], _, _ => .eq
  | k :: keys, a, b =>
    (Cell.sortOrder k.direction (a.named columns k.column) (b.named columns k.column)).then
      (namedOrder columns keys a b)

end Row

namespace Table

theorem map_cell_of_mapM {α : Type} {t : Table} {f : α → String} {as : List α}
    {positions : List Nat} (found : as.mapM (fun a => t.indexOf (f a)) = .ok positions)
    (row : Row) : positions.map row.cell = as.map fun a => row.named t.columns (f a) :=
  map_eq_map_of_mapM found fun _ _ at_position => cell_of_indexOf at_position row

theorem exists_mapM_indexOf {α : Type} {t : Table} {f : α → String} {as : List α} :
    (∃ positions, as.mapM (fun a => t.indexOf (f a)) = .ok positions) ↔
      ∀ a ∈ as, f a ∈ t.columns := by
  rw [exists_mapM_eq_ok]
  simp only [exists_indexOf_eq_ok]

theorem ofRows_eq_ok {columns : List String} {rows : List Row} {t : Table} :
    ofRows columns rows = .ok t ↔
      columns.Nodup ∧ (∀ row ∈ rows, row.length = columns.length) ∧ t = ⟨columns, rows⟩ := by
  unfold ofRows
  rw [check_eq_ok, validate_eq_ok_iff, pure_eq_ok]
  constructor
  · rintro ⟨valid, rfl⟩
    exact ⟨valid.distinct, valid.width, rfl⟩
  · rintro ⟨distinct, width, rfl⟩
    exact ⟨⟨distinct, width⟩, rfl⟩

theorem validate_eq_duplicate {t : Table} (repeated : ¬ t.columns.Nodup) :
    ∃ name, t.validate = .error (.duplicateColumn name) := by
  unfold validate
  split
  · exact ⟨_, rfl⟩
  · rename_i distinct
    exact absurd (firstRepeat?_eq_none_iff.1 distinct).1 repeated

theorem ofRows_eq_duplicate {columns : List String} (repeated : ¬ columns.Nodup)
    (rows : List Row) : ∃ name, ofRows columns rows = .error (.duplicateColumn name) := by
  obtain ⟨name, failed⟩ := validate_eq_duplicate (t := ⟨columns, rows⟩) repeated
  exact ⟨name, bind_eq_error.2 (.inl failed)⟩

theorem requireColumns_eq_ok {t : Table} {names : List String} :
    t.requireColumns names = .ok () ↔ ∀ name ∈ names, name ∈ t.columns := by
  induction names with
  | nil => simp [requireColumns]
  | cons name names ih =>
    rw [requireColumns, bind_eq_ok, List.forall_mem_cons, ← exists_indexOf_eq_ok, ← ih]
    exact exists_and_right

theorem filter_eq_ok {t t' : Table} {p : Predicate} :
    t.filter p = .ok t' ↔ t.Valid ∧ (∀ name ∈ p.columnNames, name ∈ t.columns) ∧
      t' = ⟨t.columns, t.rows.filter fun row => p.truth t.columns row == some true⟩ := by
  unfold filter
  rw [check_eq_ok, check_eq_ok, validate_eq_ok_iff, requireColumns_eq_ok, pure_eq_ok, eq_comm]

theorem project_eq_ok {t t' : Table} {columns : List Renaming} :
    t.project columns = .ok t' ↔ t.Valid ∧ (∀ c ∈ columns, c.source ∈ t.columns) ∧
      (columns.map Renaming.name).Nodup ∧
      t' = ⟨columns.map Renaming.name,
        t.rows.map fun row => columns.map fun c => row.named t.columns c.source⟩ := by
  unfold project
  rw [check_eq_ok, validate_eq_ok_iff, bind_eq_ok, ← exists_mapM_indexOf]
  refine and_congr_right fun _ => ?_
  constructor
  · rintro ⟨positions, found, made⟩
    obtain ⟨distinct, _, rfl⟩ := ofRows_eq_ok.1 made
    refine ⟨⟨positions, found⟩, distinct, ?_⟩
    simp only [map_cell_of_mapM found]
  · rintro ⟨⟨positions, found⟩, distinct, rfl⟩
    refine ⟨positions, found, ofRows_eq_ok.2 ⟨distinct, ?_, ?_⟩⟩
    · simp only [List.forall_mem_map, map_cell_of_mapM found, List.length_map, implies_true]
    · simp only [map_cell_of_mapM found]

def qualified (t : Table) (aliasName : String) : Table :=
  ⟨t.columns.map fun c => (ColumnRef.qualified aliasName c).text, t.rows⟩

theorem qualified_injective (aliasName : String) :
    Function.Injective fun c => (ColumnRef.qualified aliasName c).text := by
  intro c d same
  have pieces := congrArg String.toList same
  simpa [ColumnRef.text, ColumnRef.qualified, String.toList_inj] using pieces

theorem columnNames_eq_ok {t : Table} {names : List String} :
    t.columnNames = .ok names ↔ t.Valid ∧ t.columns = names := by
  unfold columnNames
  rw [check_eq_ok, validate_eq_ok_iff, pure_eq_ok]

theorem valid_qualified {t : Table} (valid : t.Valid) (aliasName : String) :
    (t.qualified aliasName).Valid where
  distinct := List.Nodup.map (qualified_injective aliasName) valid.distinct
  width row mem := by
    rw [qualified, List.length_map]
    exact valid.width row mem

theorem qualify_eq_ok {t t' : Table} {aliasName : String} :
    t.qualify aliasName = .ok t' ↔ t.Valid ∧ t' = t.qualified aliasName := by
  let renamings := t.columns.map fun c => (⟨c, aliasName ++ "." ++ c⟩ : Renaming)
  have names : renamings.map Renaming.name = (t.qualified aliasName).columns := by
    rw [List.map_map]
    rfl
  have rows (valid : t.Valid) : t.rows.map (fun row =>
      renamings.map fun c => row.named t.columns c.source) = t.rows := by
    have unchanged : ∀ row ∈ t.rows,
        (renamings.map fun c => row.named t.columns c.source) = row := fun row mem => by
      rw [List.map_map]
      exact Row.map_named_self valid.distinct (valid.width row mem)
    rw [List.map_congr_left unchanged, List.map_id']
  have present : ∀ c ∈ renamings, c.source ∈ t.columns := by simp [renamings]
  unfold qualify
  rw [bind_eq_ok]
  simp only [columnNames_eq_ok]
  constructor
  · rintro ⟨_, ⟨valid, rfl⟩, projected⟩
    obtain ⟨_, _, _, rfl⟩ := project_eq_ok.1 projected
    rw [names, rows valid]
    exact ⟨valid, rfl⟩
  · rintro ⟨valid, rfl⟩
    refine ⟨_, ⟨valid, rfl⟩, project_eq_ok.2 ⟨valid, present, ?_, ?_⟩⟩
    · rw [names]
      exact (valid_qualified valid aliasName).distinct
    · rw [names, rows valid]
      rfl

theorem sortOrder_eq_namedOrder {t : Table} {keys : List SortKey}
    {positions : List (Nat × Direction)}
    (found : keys.mapM (fun k => return (← t.indexOf k.column, k.direction)) = .ok positions)
    (a b : Row) : Row.sortOrder positions a b = Row.namedOrder t.columns keys a b := by
  rw [mapM_eq_ok] at found
  induction found with
  | nil => rfl
  | cons first _ ih =>
    obtain ⟨i, at_position, same⟩ := bind_eq_ok.1 first
    rw [← pure_eq_ok.1 same, Row.sortOrder, Row.namedOrder, ih, cell_of_indexOf at_position,
      cell_of_indexOf at_position]

def sorted (t : Table) (sorter : Sorter) (keys : List SortKey) : Option Table :=
  (sorter.sort (Row.namedOrder t.columns keys) t.rows).map fun rows => ⟨t.columns, rows⟩

theorem sort_eq_ok {sorter : Sorter} {t : Table} {keys : List SortKey} {result : Option Table} :
    t.sort sorter keys = .ok result ↔ t.Valid ∧ (∀ k ∈ keys, k.column ∈ t.columns) ∧
      result = t.sorted sorter keys := by
  have total : (∃ positions : List (Nat × Direction),
      keys.mapM (fun k => return (← t.indexOf k.column, k.direction)) = .ok positions) ↔
      ∀ k ∈ keys, k.column ∈ t.columns := by
    simp only [exists_mapM_eq_ok, bind_eq_ok, pure_eq_ok, ← exists_indexOf_eq_ok]
    refine forall₂_congr fun k _ => ?_
    exact ⟨fun ⟨_, i, found, _⟩ => ⟨i, found⟩, fun ⟨i, found⟩ => ⟨_, i, found, rfl⟩⟩
  have order {positions : List (Nat × Direction)}
      (found : keys.mapM (fun k => return (← t.indexOf k.column, k.direction)) = .ok positions) :
      Row.sortOrder positions = Row.namedOrder t.columns keys :=
    funext fun a => funext fun b => sortOrder_eq_namedOrder found a b
  unfold sort sorted
  rw [check_eq_ok, validate_eq_ok_iff, bind_eq_ok, ← total]
  refine and_congr_right fun _ => ?_
  constructor
  · rintro ⟨positions, found, made⟩
    rw [order found] at made
    exact ⟨⟨positions, found⟩, (pure_eq_ok.1 made).symm⟩
  · rintro ⟨⟨positions, found⟩, rfl⟩
    refine ⟨positions, found, ?_⟩
    rw [order found]
    rfl

def rowsMatch (left right : Table) (leftKey rightKey : String) (a b : Row) : Bool :=
  (a.named left.columns leftKey).matches (b.named right.columns rightKey)

/-- The rows of a join by two loops: each left row with its matches, then the right rows without
one. -/
def joinRows (left right : Table) (leftKey rightKey : String) (kind : JoinKind) : List Row :=
  (left.rows.flatMap fun a => joinLeftRow kind right.columns.length a
    (right.rows.filter (rowsMatch left right leftKey rightKey a))) ++
  if kind.keepsRight then
    (right.rows.filter fun b => !left.rows.any (rowsMatch left right leftKey rightKey · b)).map
      (Row.nulls left.columns.length ++ ·)
  else []

theorem length_of_mem_joinLeftRow {kind : JoinKind} {width : Nat} {row : Row} {found : List Row}
    (widths : ∀ b ∈ found, b.length = width) {joined : Row}
    (mem : joined ∈ joinLeftRow kind width row found) :
    joined.length = row.length + width := by
  unfold joinLeftRow at mem
  split_ifs at mem with empty kept
  · rw [List.mem_singleton.1 mem, List.length_append, Row.length_nulls]
  · cases mem
  · obtain ⟨b, found_b, rfl⟩ := List.mem_map.1 mem
    rw [List.length_append, widths b found_b]

theorem length_of_mem_joinRows {left right : Table} (valid : left.Valid) (valid' : right.Valid)
    {leftKey rightKey : String} {kind : JoinKind} {row : Row}
    (mem : row ∈ joinRows left right leftKey rightKey kind) :
    row.length = (left.columns ++ right.columns).length := by
  rw [List.length_append]
  unfold joinRows at mem
  obtain mem | mem := List.mem_append.1 mem
  · obtain ⟨a, mem_a, mem⟩ := List.mem_flatMap.1 mem
    rw [← valid.width a mem_a]
    exact length_of_mem_joinLeftRow (fun b mem_b => valid'.width b (List.mem_filter.1 mem_b).1)
      mem
  · split at mem
    · obtain ⟨b, mem_b, rfl⟩ := List.mem_map.1 mem
      rw [List.length_append, Row.length_nulls, valid'.width b (List.mem_filter.1 mem_b).1]
    · cases mem

theorem join_eq_ok {left right t : Table} {leftKey rightKey : String} {kind : JoinKind} :
    left.join right leftKey rightKey kind = .ok t ↔ left.Valid ∧ right.Valid ∧
      leftKey ∈ left.columns ∧ rightKey ∈ right.columns ∧
      (left.columns ++ right.columns).Nodup ∧
      t = ⟨left.columns ++ right.columns, joinRows left right leftKey rightKey kind⟩ := by
  have rows_eq {i j : Nat} (at_left : left.indexOf leftKey = .ok i)
      (at_right : right.indexOf rightKey = .ok j) :
      ((left.rows.flatMap fun row => joinLeftRow kind right.columns.length row
          ((KeyIndex.ofRows j right.rows).lookup (row.cell i))) ++
        if kind.keepsRight then (right.rows.filter fun row =>
            ((KeyIndex.ofRows i left.rows).lookup (row.cell j)).isEmpty).map
          (Row.nulls left.columns.length ++ ·) else []) =
      joinRows left right leftKey rightKey kind := by
    simp only [KeyIndex.lookup_ofRows, cell_of_indexOf at_left, cell_of_indexOf at_right]
    unfold joinRows rowsMatch
    congr 3
    refine List.filter_congr fun b _ => ?_
    rw [Bool.eq_iff_iff]
    simp [Cell.matches_comm (b.named right.columns rightKey)]
  unfold join
  rw [check_eq_ok, check_eq_ok, validate_eq_ok_iff, validate_eq_ok_iff, bind_eq_ok,
    ← exists_indexOf_eq_ok, ← exists_indexOf_eq_ok]
  refine and_congr_right fun valid => and_congr_right fun valid' => ?_
  constructor
  · rintro ⟨i, at_left, made⟩
    obtain ⟨j, at_right, made⟩ := bind_eq_ok.1 made
    dsimp only at made
    rw [rows_eq at_left at_right] at made
    obtain ⟨distinct, _, rfl⟩ := ofRows_eq_ok.1 made
    exact ⟨⟨i, at_left⟩, ⟨j, at_right⟩, distinct, rfl⟩
  · rintro ⟨⟨i, at_left⟩, ⟨j, at_right⟩, distinct, rfl⟩
    refine ⟨i, at_left, bind_eq_ok.2 ⟨j, at_right, ?_⟩⟩
    dsimp only
    rw [rows_eq at_left at_right]
    exact ofRows_eq_ok.2 ⟨distinct, fun row mem => length_of_mem_joinRows valid valid' mem, rfl⟩

theorem join_eq_duplicate {left right : Table} {leftKey rightKey : String} (valid : left.Valid)
    (valid' : right.Valid) (left_mem : leftKey ∈ left.columns)
    (right_mem : rightKey ∈ right.columns)
    (repeated : ¬ (left.columns ++ right.columns).Nodup) (kind : JoinKind) :
    ∃ name, left.join right leftKey rightKey kind = .error (.duplicateColumn name) := by
  obtain ⟨i, at_left⟩ := exists_indexOf_eq_ok.2 left_mem
  obtain ⟨j, at_right⟩ := exists_indexOf_eq_ok.2 right_mem
  unfold join
  rw [validate_eq_ok_iff.2 valid, validate_eq_ok_iff.2 valid', at_left, at_right]
  exact ofRows_eq_duplicate repeated _

end Table

end TablePlan
