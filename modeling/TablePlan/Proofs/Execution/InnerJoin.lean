import TablePlan.Proofs.Execution.Choices
import TablePlan.Proofs.Execution.Joining

/-!
Inner joins as filtered products. Joining one more source to the choices that satisfy the edges so
far gives the choices that satisfy one more edge; so all joins of a plan give the choices that
satisfy all of its edges, in the order of the choices.
-/

namespace TablePlan

namespace Table

theorem joinLeftRow_inner (width : Nat) (row : Row) (found : List Row) :
    joinLeftRow .inner width row found = found.map (row ++ ·) := by
  unfold joinLeftRow
  split
  · rename_i empty
    rw [List.isEmpty_iff.1 empty]
    rfl
  · rfl

theorem joinRows_inner (left right : Table) (leftKey rightKey : String) :
    joinRows left right leftKey rightKey .inner = left.rows.flatMap fun a =>
      (right.rows.filter (rowsMatch left right leftKey rightKey a)).map (a ++ ·) := by
  unfold joinRows
  simp only [joinLeftRow_inner]
  exact List.append_nil _

end Table

def product (sources : List Source) (holds : List Nat → Bool) : Table :=
  ⟨columnsOf sources, ((choices sources).filter holds).map (combined sources)⟩

def JoinEdge.holdsAt (e : JoinEdge) (sources : List Source) (positions : List Nat) : Bool :=
  (cellAt sources positions e.leftKey).matches (cellAt sources positions e.rightKey)

theorem inRange_concat {sources : List Source} {positions : List Nat} {s : Source} {i : Nat}
    (chosen : InRange sources positions) (within : i < s.table.rows.length) :
    InRange (sources ++ [s]) (positions ++ [i]) :=
  List.rel_append chosen (.cons within .nil)

section Step

variable {sources : List Source} {s : Source} {e : JoinEdge} (plain : Plain (sources ++ [s]))
  (left : e.leftKey.IsPlain) (right : e.rightKey.IsPlain)
  (left_present : e.leftKey.text ∈ columnsOf sources)
  (right_present : e.rightKey.text ∈ s.scan.columns)

include plain left right left_present right_present

theorem rowsMatch_eq_holdsAt {t : Table} (columns : t.columns = columnsOf sources)
    {positions : List Nat} {i : Nat} (chosen : InRange sources positions)
    (within : i < s.table.rows.length) :
    t.rowsMatch s.scan e.leftKey.text e.rightKey.text (combined sources positions) (s.row i) =
      e.holdsAt (sources ++ [s]) (positions ++ [i]) := by
  have distinct := nodup_columnsOf plain
  have longer := inRange_concat chosen within
  have width := length_combined
    (fun s' mem => plain.valid s' (List.mem_append_left _ mem)) chosen
  have absent : e.rightKey.text ∉ columnsOf sources := fun mem => by
    rw [columnsOf_concat] at distinct
    exact (List.nodup_append.1 distinct).2.2 _ mem _ right_present rfl
  have row := combined_concat chosen.length_eq s i
  have left_cell := named_combined plain longer left (by
    rw [columnsOf_concat]
    exact List.mem_append_left _ left_present)
  have right_cell := named_combined plain longer right (by
    rw [columnsOf_concat]
    exact List.mem_append_right _ right_present)
  rw [row, columnsOf_concat, Row.named_append_of_mem width left_present] at left_cell
  rw [row, columnsOf_concat, Row.named_append_of_notMem width absent] at right_cell
  rw [Table.rowsMatch, columns, left_cell, right_cell, JoinEdge.holdsAt]

theorem map_append_filter_rowsMatch {t : Table} (columns : t.columns = columnsOf sources)
    {positions : List Nat} (chosen : InRange sources positions) :
    ((s.scan.rows.filter (t.rowsMatch s.scan e.leftKey.text e.rightKey.text
      (combined sources positions))).map (combined sources positions ++ ·)) =
    ((List.range s.table.rows.length).filter fun i =>
      e.holdsAt (sources ++ [s]) (positions ++ [i])).map fun i =>
        combined (sources ++ [s]) (positions ++ [i]) := by
  have scan_rows : s.scan.rows = (List.range s.table.rows.length).map s.row :=
    s.map_row_range.symm
  rw [scan_rows, List.filter_map, List.map_map]
  have same : ∀ i ∈ List.range s.table.rows.length,
      (t.rowsMatch s.scan e.leftKey.text e.rightKey.text (combined sources positions) ∘ s.row) i =
        e.holdsAt (sources ++ [s]) (positions ++ [i]) := fun i mem =>
    rowsMatch_eq_holdsAt plain left right left_present right_present columns chosen
      (List.mem_range.1 mem)
  rw [List.filter_congr same]
  refine List.map_congr_left fun i _ => ?_
  rw [combined_concat chosen.length_eq]
  rfl

theorem joinStep_product {table : String → Table} {holds : List Nat → Bool}
    (scan : table e.rightAlias = s.scan) (inner : e.kind = .inner) :
    Inputs.joinStep table (product sources holds) e = product (sources ++ [s]) fun positions =>
      holds positions.dropLast && e.holdsAt (sources ++ [s]) positions := by
  have left_rows : (product sources holds).rows =
      ((choices sources).filter holds).map (combined sources) := rfl
  have rows : (product sources holds).rows.flatMap (fun a => (s.scan.rows.filter
        (Table.rowsMatch (product sources holds) s.scan e.leftKey.text e.rightKey.text a)).map
          (a ++ ·)) =
      ((choices (sources ++ [s])).filter fun positions => holds positions.dropLast &&
        e.holdsAt (sources ++ [s]) positions).map (combined (sources ++ [s])) := by
    rw [left_rows, choices_concat, List.filter_flatMap, List.map_flatMap, List.flatMap_map,
      flatMap_filter]
    refine List.flatMap_congr fun positions chosen => ?_
    rw [List.filter_map, List.map_map, map_append_filter_rowsMatch plain left right left_present
      right_present rfl (mem_choices.1 chosen)]
    split
    · rename_i kept
      simp [Function.comp_def, kept]
    · rename_i dropped
      simp [Function.comp_def, dropped]
  unfold Inputs.joinStep
  rw [inner, Table.joinRows_inner, scan, rows]
  exact congrArg (Table.mk · _) (columnsOf_concat sources s).symm

end Step

theorem product_congr {sources : List Source} {holds holds' : List Nat → Bool}
    (same : ∀ positions, InRange sources positions → holds positions = holds' positions) :
    product sources holds = product sources holds' := by
  rw [product, List.filter_congr fun positions chosen => same positions (mem_choices.1 chosen)]
  rfl

theorem product_single (s : Source) : product [s] (fun _ => true) = s.scan := by
  have rows : ((choices [s]).filter fun _ => true).map (combined [s]) = s.scan.rows := by
    have single : choices [s] = (List.range s.table.rows.length).map fun i => [i] := by
      rw [List.map_eq_flatMap]
      rfl
    rw [List.filter_true, single, List.map_map]
    refine Eq.trans (List.map_congr_left fun i _ => ?_) s.map_row_range
    simp [combined]
  rw [product, rows]
  simp [columnsOf]

theorem exists_concat_of_inRange {sources : List Source} {s : Source} {positions : List Nat}
    (chosen : InRange (sources ++ [s]) positions) :
    ∃ before i, positions = before ++ [i] ∧ InRange sources before := by
  rw [← mem_choices, choices_concat] at chosen
  obtain ⟨before, mem, chosen⟩ := List.mem_flatMap.1 chosen
  obtain ⟨i, _, rfl⟩ := List.mem_map.1 chosen
  exact ⟨before, i, rfl, mem_choices.1 mem⟩

theorem exists_source_of_present {sources : List Source}
    (dotFree : ∀ s ∈ sources, '.' ∉ s.aliasName.toList) {ref : ColumnRef} (isPlain : ref.IsPlain)
    (present : ref.text ∈ columnsOf sources) : ∃ s ∈ sources, ref.aliasName = some s.aliasName := by
  obtain ⟨a, c, rfl, free⟩ := isPlain.exists_eq
  obtain ⟨s, mem, d, _, text⟩ := mem_columnsOf.1 present
  rw [ColumnRef.text_qualified_inj (dotFree s mem) free] at text
  exact ⟨s, mem, congrArg some text.1.symm⟩

structure JoinEdge.On (sources : List Source) (e : JoinEdge) : Prop where
  left : e.leftKey.IsPlain
  right : e.rightKey.IsPlain
  left_present : e.leftKey.text ∈ columnsOf sources
  right_present : e.rightKey.text ∈ columnsOf sources

theorem JoinEdge.On.concat {sources : List Source} {e : JoinEdge} (on : e.On sources)
    (s : Source) : e.On (sources ++ [s]) where
  left := on.left
  right := on.right
  left_present := columnsOf_concat sources s ▸ List.mem_append_left _ on.left_present
  right_present := columnsOf_concat sources s ▸ List.mem_append_left _ on.right_present

theorem JoinEdge.On.holdsAt_concat {sources : List Source} {e : JoinEdge} (on : e.On sources)
    (dotFree : ∀ s ∈ sources, '.' ∉ s.aliasName.toList) {positions : List Nat}
    (chosen : InRange sources positions) (s : Source) (i : Nat) :
    e.holdsAt (sources ++ [s]) (positions ++ [i]) = e.holdsAt sources positions := by
  obtain ⟨l, mem_l, named_l⟩ := exists_source_of_present dotFree on.left on.left_present
  obtain ⟨r, mem_r, named_r⟩ := exists_source_of_present dotFree on.right on.right_present
  rw [holdsAt, cellAt_concat_of_mem chosen.length_eq mem_l named_l,
    cellAt_concat_of_mem chosen.length_eq mem_r named_r, holdsAt]

theorem joinStep_product_all {sources : List Source} {s : Source} {earlier : List JoinEdge}
    {e : JoinEdge} (plain : Plain (sources ++ [s])) (on : ∀ d ∈ earlier, d.On sources)
    (keys : e.leftKey.IsPlain ∧ e.rightKey.IsPlain)
    (left_present : e.leftKey.text ∈ columnsOf sources)
    (right_present : e.rightKey.text ∈ s.scan.columns) {table : String → Table}
    (scan : table e.rightAlias = s.scan) (inner : e.kind = .inner) :
    Inputs.joinStep table
      (product sources fun positions => earlier.all fun e => e.holdsAt sources positions) e =
    product (sources ++ [s]) fun positions =>
      (earlier ++ [e]).all fun e => e.holdsAt (sources ++ [s]) positions := by
  have dotFree : ∀ s' ∈ sources, '.' ∉ s'.aliasName.toList :=
    fun s' mem => plain.dotFree s' (List.mem_append_left _ mem)
  rw [joinStep_product plain keys.1 keys.2 left_present right_present scan inner]
  refine product_congr fun positions chosen => ?_
  obtain ⟨before, i, rfl, chosen_before⟩ := exists_concat_of_inRange chosen
  have same : (earlier.all fun d => d.holdsAt sources before) =
      earlier.all fun d => d.holdsAt (sources ++ [s]) (before ++ [i]) := by
    rw [Bool.eq_iff_iff, List.all_eq_true, List.all_eq_true]
    refine forall₂_congr fun d mem => ?_
    rw [(on d mem).holdsAt_concat dotFree chosen_before s i]
  rw [List.dropLast_concat, List.all_append, same, List.all_cons, List.all_nil, Bool.and_true]

/-- All joins, one after another, keep the choices that satisfy all edges. -/
theorem foldl_joinStep_product {source : String → Source} {sources : List Source}
    {earlier edges : List JoinEdge}
    (plain : Plain (sources ++ edges.map fun e => source e.rightAlias))
    (on : ∀ e ∈ earlier, e.On sources) (inner : ∀ e ∈ edges, e.kind = .inner)
    (keys : ∀ e ∈ edges, e.leftKey.IsPlain ∧ e.rightKey.IsPlain)
    (left_present : ∀ k e, edges[k]? = some e → e.leftKey.text ∈
      columnsOf (sources ++ (edges.take k).map fun e => source e.rightAlias))
    (right_present : ∀ e ∈ edges, e.rightKey.text ∈ (source e.rightAlias).scan.columns) :
    edges.foldl (Inputs.joinStep fun a => (source a).scan)
      (product sources fun positions => earlier.all fun e => e.holdsAt sources positions) =
    product (sources ++ edges.map fun e => source e.rightAlias) fun positions =>
      (earlier ++ edges).all fun e =>
        e.holdsAt (sources ++ edges.map fun e => source e.rightAlias) positions := by
  induction edges generalizing sources earlier with
  | nil => simp
  | cons e edges ih =>
    let s := source e.rightAlias
    have shift (rest : List JoinEdge) : sources ++ (e :: rest).map (fun e => source e.rightAlias) =
        (sources ++ [s]) ++ rest.map fun e => source e.rightAlias := by
      rw [List.map_cons, List.append_assoc, List.singleton_append]
    rw [List.forall_mem_cons] at inner keys right_present
    rw [shift] at plain
    have plain_s : Plain (sources ++ [s]) := plain.sublist (List.sublist_append_left _ _)
    have first : e.leftKey.text ∈ columnsOf sources := by simpa using left_present 0 e rfl
    have on_s : ∀ d ∈ earlier ++ [e], d.On (sources ++ [s]) := by
      intro d mem
      obtain mem | mem := List.mem_append.1 mem
      · exact (on d mem).concat s
      · cases List.mem_singleton.1 mem
        exact ⟨keys.1.1, keys.1.2, columnsOf_concat sources s ▸ List.mem_append_left _ first,
          columnsOf_concat sources s ▸ List.mem_append_right _ right_present.1⟩
    have later : ∀ k d, edges[k]? = some d → d.leftKey.text ∈ columnsOf
        (sources ++ [s] ++ (edges.take k).map fun e => source e.rightAlias) := by
      intro k d at_k
      have present := left_present (k + 1) d at_k
      rwa [List.take_succ_cons, shift] at present
    rw [List.foldl_cons, joinStep_product_all plain_s on keys.1 first right_present.1 rfl inner.1,
      ih plain on_s inner.2 keys.2 later right_present.2, shift]
    simp only [List.append_assoc, List.singleton_append]

end TablePlan
