import TablePlan.Proofs.Predicate
import TablePlan.Proofs.Table.Grouping

/-!
Tables with further columns. A table extends another one when its rows show, one by one, the same
cells under the columns of the other. Joins keep this as long as column names stay distinct; groups
and projections read columns by their names only, and are the same for both tables.
-/

namespace TablePlan

open Success

namespace Row

theorem named_nulls (columns : List String) (width : Nat) (name : String) :
    (nulls width).named columns name = .null := by
  have cell (i : Nat) : (nulls width).cell i = .null := by
    simp only [nulls, Row.cell, List.getD_eq_getElem?_getD, List.getElem?_replicate]
    split <;> rfl
  unfold named
  cases columns.findIdx? (· == name) with
  | none => rfl
  | some i => exact cell i

/-- Whether a row over more columns shows every cell of a row under the same name. -/
def Carries (more columns : List String) (longer row : Row) : Prop :=
  ∀ name ∈ columns, longer.named more name = row.named columns name

theorem carries_nulls (more columns : List String) (width width' : Nat) :
    Carries more columns (nulls width) (nulls width') := by
  intro name _
  rw [named_nulls, named_nulls]

theorem Carries.append {more more' columns columns' : List String}
    {longer longer' row row' : Row} (distinct : (more ++ more').Nodup) (sub : columns ⊆ more)
    (sub' : columns' ⊆ more') (width : longer.length = more.length ∧ row.length = columns.length)
    (carries : Carries more columns longer row) (carries' : Carries more' columns' longer' row') :
    Carries (more ++ more') (columns ++ columns') (longer ++ longer') (row ++ row') := by
  intro name mem
  by_cases first : name ∈ columns
  · rw [named_append_of_mem width.1 (sub first), named_append_of_mem width.2 first]
    exact carries name first
  · have second := (List.mem_append.1 mem).resolve_left first
    have absent : name ∉ more := fun old =>
      (List.nodup_append.1 distinct).2.2 name old name (sub' second) rfl
    rw [named_append_of_notMem width.1 absent, named_append_of_notMem width.2 first]
    exact carries' name second

end Row

theorem Predicate.truth_of_carries {more columns : List String} {longer row : Row} {p : Predicate}
    (carries : Row.Carries more columns longer row)
    (reads : ∀ name ∈ p.columnNames, name ∈ columns) :
    p.truth more longer = p.truth columns row := by
  refine truth_congr fun operand mem => ?_
  have reads {name : String} (read : operand.columnName? = some name) :
      longer.named more name = row.named columns name :=
    carries name (reads name (List.mem_filterMap.2 ⟨operand, mem, read⟩))
  cases operand with
  | column ref => exact reads rfl
  | literal _ => rfl
  | aggregate call => exact reads rfl

namespace Table

/-- Whether a table holds every column of another one with the same cell in every row. Its columns
may stand in another order, and there may be more of them. -/
structure Extends (more t : Table) : Prop where
  columns : t.columns ⊆ more.columns
  rows : List.Forall₂ (Row.Carries more.columns t.columns) more.rows t.rows

theorem Extends.refl (t : Table) : t.Extends t where
  columns := fun _ mem => mem
  rows := List.forall₂_same.2 fun _ _ _ _ => rfl

theorem Extends.qualified {more t : Table} (extends_t : more.Extends t) (aliasName : String) :
    (more.qualified aliasName).Extends (t.qualified aliasName) where
  columns := List.map_subset _ extends_t.columns
  rows := extends_t.rows.imp fun longer row carries => List.forall_mem_map.2 fun c mem => by
    have injective := qualified_injective aliasName
    rw [Table.qualified, Table.qualified, Row.named_map injective, Row.named_map injective]
    exact carries c mem

theorem Extends.rows_of_valid {more t : Table} (extends_t : more.Extends t) (valid : t.Valid)
    (valid' : more.Valid) : List.Forall₂ (fun longer row =>
      (longer.length = more.columns.length ∧ row.length = t.columns.length) ∧
        Row.Carries more.columns t.columns longer row) more.rows t.rows := by
  have widths := (List.forall₂_and_left more.rows t.rows).2 ⟨valid'.width, extends_t.rows⟩
  have flipped := (List.forall₂_and_left t.rows more.rows).2 ⟨valid.width, widths.flip⟩
  exact flipped.flip.imp fun _ _ facts => ⟨⟨facts.2.1, facts.1⟩, facts.2.2⟩

section Join

variable {left left' right right' : Table} {leftKey rightKey : String}

theorem rowsMatch_of_carries (left_mem : leftKey ∈ left.columns)
    (right_mem : rightKey ∈ right.columns) {a a' b b' : Row}
    (carries : Row.Carries left'.columns left.columns a' a)
    (carries' : Row.Carries right'.columns right.columns b' b) :
    rowsMatch left' right' leftKey rightKey a' b' = rowsMatch left right leftKey rightKey a b := by
  rw [rowsMatch, rowsMatch, carries _ left_mem, carries' _ right_mem]

variable (distinct : (left'.columns ++ right'.columns).Nodup)

include distinct

theorem carries_joinLeftRow (sub : left.columns ⊆ left'.columns)
    (sub' : right.columns ⊆ right'.columns) {a a' : Row} {found found' : List Row}
    (width : a'.length = left'.columns.length ∧ a.length = left.columns.length)
    (carries : Row.Carries left'.columns left.columns a' a)
    (same : List.Forall₂ (Row.Carries right'.columns right.columns) found' found)
    (kind : JoinKind) : List.Forall₂
      (Row.Carries (left'.columns ++ right'.columns) (left.columns ++ right.columns))
      (joinLeftRow kind right'.columns.length a' found')
      (joinLeftRow kind right.columns.length a found) := by
  cases same with
  | nil =>
    unfold joinLeftRow
    cases kind.keepsLeft with
    | true =>
      exact .cons (carries.append distinct sub sub' width (Row.carries_nulls _ _ _ _)) .nil
    | false => exact .nil
  | cons first rest =>
    exact List.rel_map (fun _ _ carries' => carries.append distinct sub sub' width carries')
      (.cons first rest)

theorem Extends.join (extends_left : left'.Extends left) (extends_right : right'.Extends right)
    (valid : left.Valid) (valid' : left'.Valid) (left_mem : leftKey ∈ left.columns)
    (right_mem : rightKey ∈ right.columns) (kind : JoinKind) :
    (⟨left'.columns ++ right'.columns, joinRows left' right' leftKey rightKey kind⟩ : Table).Extends
      ⟨left.columns ++ right.columns, joinRows left right leftKey rightKey kind⟩ where
  columns := List.append_subset.2
    ⟨List.subset_append_of_subset_left _ extends_left.columns,
      List.subset_append_of_subset_right _ extends_right.columns⟩
  rows := by
    have matches_eq {a a' b b' : Row} (carries : Row.Carries left'.columns left.columns a' a)
        (carries' : Row.Carries right'.columns right.columns b' b) :=
      rowsMatch_of_carries left_mem right_mem carries carries'
    refine List.rel_append ?_ ?_
    · refine List.rel_flatMap (extends_left.rows_of_valid valid valid') fun a' a facts => ?_
      refine carries_joinLeftRow distinct extends_left.columns extends_right.columns facts.1 facts.2
        (List.rel_filter (fun b' b carries' => ?_) extends_right.rows) kind
      exact iff_of_eq (congrArg (· = true) (matches_eq facts.2 carries'))
    · cases kind.keepsRight with
      | false => exact .nil
      | true =>
        have nulls {b' b : Row} (carries' : Row.Carries right'.columns right.columns b' b) :
            Row.Carries (left'.columns ++ right'.columns) (left.columns ++ right.columns)
              (Row.nulls left'.columns.length ++ b') (Row.nulls left.columns.length ++ b) :=
          (Row.carries_nulls _ _ _ _).append distinct extends_left.columns extends_right.columns
            ⟨Row.length_nulls _, Row.length_nulls _⟩ carries'
        refine List.rel_map (R := Row.Carries right'.columns right.columns) (fun _ _ => nulls)
          (List.rel_filter (fun b' b carries' => ?_) extends_right.rows)
        have found : left'.rows.any (rowsMatch left' right' leftKey rightKey · b') =
            left.rows.any (rowsMatch left right leftKey rightKey · b) :=
          any_eq_of_forall₂ (extends_left.rows.imp fun _ _ carries => matches_eq carries carries')
        simp only [found]

end Join

end Table

section Group

variable {keeps : Row → Row → Prop} {positions positions' : List Nat}

structure Group.Follows (keeps : Row → Row → Prop) (g' g : Group) : Prop where
  key : g'.key = g.key
  cells : g'.cells = g.cells
  members : List.Forall₂ keeps g'.members.toList g.members.toList

namespace Group

theorem insertRow_follows {row' row : Row} (kept : keeps row' row)
    (cells : positions'.map row'.cell = positions.map row.cell) {groups' groups : List Group}
    (same : List.Forall₂ (Follows keeps) groups' groups) :
    List.Forall₂ (Follows keeps) (insertRow positions' row' groups')
      (insertRow positions row groups) := by
  have keys : (positions'.map fun i => (row'.cell i).key) =
      positions.map fun i => (row.cell i).key := by
    simpa [Function.comp_def] using congrArg (List.map Cell.key) cells
  induction same with
  | nil =>
    rw [insertRow, insertRow, keys, cells]
    exact .cons ⟨rfl, rfl, .cons kept .nil⟩ .nil
  | @cons g' g groups' groups first rest ih =>
    rw [insertRow, insertRow, keys, first.key]
    split
    · refine .cons ⟨rfl, first.cells, ?_⟩ rest
      rw [Array.toList_push, Array.toList_push]
      exact List.rel_append first.members (.cons kept .nil)
    · exact .cons first ih

theorem ofRows_follows (length : positions'.length = positions.length)
    (cells : ∀ row' row, keeps row' row → positions'.map row'.cell = positions.map row.cell)
    {rows' rows : List Row} (same : List.Forall₂ keeps rows' rows) :
    List.Forall₂ (Follows keeps) (ofRows positions' rows') (ofRows positions rows) := by
  have empty : (positions'.isEmpty && rows'.isEmpty) = (positions.isEmpty && rows.isEmpty) := by
    rw [Bool.eq_iff_iff]
    simp only [Bool.and_eq_true, List.isEmpty_iff_length_eq_zero, length, same.length_eq]
  rw [ofRows, ofRows, empty]
  split
  · exact .cons ⟨rfl, rfl, .nil⟩ .nil
  · exact List.rel_foldl (P := List.Forall₂ (Follows keeps))
      (fun _ _ same row' row kept => insertRow_follows kept (cells row' row kept) same) .nil same

end Group

def SameCell (keeps : Row → Row → Prop) : Option Nat → Option Nat → Prop :=
  Option.Rel fun i' i => ∀ row' row, keeps row' row → row'.cell i' = row.cell i

theorem AggregateCall.evaluate_eq_of_sameCell {position' position : Option Nat}
    (cells : SameCell keeps position' position) {members' members : List Row}
    (same : List.Forall₂ keeps members' members) (call : AggregateCall) :
    call.evaluate position' members' = call.evaluate position members := by
  cases cells with
  | none => rw [evaluate, evaluate, same.length_eq]
  | @some i' i cells =>
    have column : (members'.map fun row => row.cell i') = members.map fun row => row.cell i := by
      rw [← List.forall₂_eq_eq_eq, List.forall₂_map_left_iff, List.forall₂_map_right_iff]
      exact same.imp cells
    rw [evaluate, evaluate, column]

namespace Table

theorem groupRow_eq_of_follows {calls : List AggregateCall}
    {arguments' arguments : List (Option Nat)}
    (cells : List.Forall₂ (SameCell keeps) arguments' arguments) {g' g : Group}
    (same : g'.Follows keeps g) : groupRow calls arguments' g' = groupRow calls arguments g := by
  have values : List.Forall₂ (fun c' c => c'.1.evaluate c'.2 g'.members.toList =
      c.1.evaluate c.2 g.members.toList) (calls.zip arguments') (calls.zip arguments) := by
    induction cells generalizing calls with
    | nil =>
      rw [List.zip_nil_right]
      exact .nil
    | cons first _ ih =>
      cases calls with
      | nil => exact .nil
      | cons call calls =>
        exact .cons (AggregateCall.evaluate_eq_of_sameCell first same.members call) ih
  unfold groupRow
  rw [mapM_eq_mapM values, same.cells]

theorem sameCell_of_argumentIndex {t' t : Table} {call : AggregateCall}
    (reads : ∀ ref ∈ call.argument, ref.text ∈ t.columns) {position' position : Option Nat}
    (found' : t'.argumentIndex call = .ok position') (found : t.argumentIndex call = .ok position) :
    SameCell (Row.Carries t'.columns t.columns) position' position := by
  unfold argumentIndex at found' found
  split at found
  · rename_i ref argument
    rw [argument] at found'
    obtain ⟨i', at_position', same'⟩ := bind_eq_ok.1 found'
    obtain ⟨i, at_position, same⟩ := bind_eq_ok.1 found
    rw [← pure_eq_ok.1 same', ← pure_eq_ok.1 same]
    refine .some fun row' row carries => ?_
    rw [cell_of_indexOf at_position', cell_of_indexOf at_position]
    exact carries _ (reads ref argument)
  · rename_i none
    rw [none] at found'
    cases pure_eq_ok.1 found'
    cases pure_eq_ok.1 found
    exact .none

theorem Extends.group_eq {t' t : Table} (extends_t : t'.Extends t) (valid : t.Valid)
    (valid' : t'.Valid) {columns : List String} {calls : List AggregateCall}
    (keys : ∀ name ∈ columns, name ∈ t.columns)
    (reads : ∀ call ∈ calls, ∀ ref ∈ call.argument, ref.text ∈ t.columns) :
    t'.group columns calls = t.group columns calls := by
  obtain ⟨positions, found⟩ := (exists_mapM_indexOf (f := id)).2 keys
  obtain ⟨positions', found'⟩ := (exists_mapM_indexOf (t := t') (f := id)).2 fun name mem =>
    extends_t.columns (keys name mem)
  obtain ⟨arguments, read⟩ : ∃ arguments, calls.mapM t.argumentIndex = .ok arguments :=
    exists_mapM_eq_ok.2 fun call mem => exists_argumentIndex_eq_ok.2 (reads call mem)
  obtain ⟨arguments', read'⟩ : ∃ arguments, calls.mapM t'.argumentIndex = .ok arguments :=
    exists_mapM_eq_ok.2 fun call mem => exists_argumentIndex_eq_ok.2 fun ref argument =>
      extends_t.columns (reads call mem ref argument)
  have length : positions'.length = positions.length :=
    (mapM_eq_ok.1 found').length_eq.symm.trans (mapM_eq_ok.1 found).length_eq
  have cells (row' row : Row) (carries : Row.Carries t'.columns t.columns row' row) :
      positions'.map row'.cell = positions.map row.cell := by
    rw [map_cell_of_mapM found', map_cell_of_mapM found]
    exact List.map_congr_left fun name mem => carries name (keys name mem)
  have sameCells : List.Forall₂ (SameCell (Row.Carries t'.columns t.columns)) arguments'
      arguments :=
    forall₂_of_mapM read' read fun call mem _ _ => sameCell_of_argumentIndex (reads call mem)
  have rows : (Group.ofRows positions' t'.rows).mapM (groupRow calls arguments') =
      (Group.ofRows positions t.rows).mapM (groupRow calls arguments) :=
    mapM_eq_mapM ((Group.ofRows_follows length cells extends_t.rows).imp fun _ _ same =>
      groupRow_eq_of_follows sameCells same)
  rw [group_eq_of_found valid' found' read', group_eq_of_found valid found read, rows]

theorem Extends.project_eq {t' t : Table} (extends_t : t'.Extends t) (valid : t.Valid)
    (valid' : t'.Valid) {columns : List Renaming} (reads : ∀ c ∈ columns, c.source ∈ t.columns) :
    t'.project columns = t.project columns := by
  obtain ⟨positions, found⟩ := exists_mapM_indexOf.2 reads
  obtain ⟨positions', found'⟩ := (exists_mapM_indexOf (t := t')).2 fun c mem =>
    extends_t.columns (reads c mem)
  have rows : (t'.rows.map fun row => positions'.map row.cell) =
      t.rows.map fun row => positions.map row.cell := by
    rw [← List.forall₂_eq_eq_eq, List.forall₂_map_left_iff, List.forall₂_map_right_iff]
    refine extends_t.rows.imp fun row' row carries => ?_
    rw [map_cell_of_mapM found', map_cell_of_mapM found]
    exact List.map_congr_left fun c mem => carries c.source (reads c mem)
  unfold project
  rw [validate_eq_ok_iff.2 valid, validate_eq_ok_iff.2 valid', found, found']
  exact congrArg (ofRows _) rows

end Table

end Group

end TablePlan
