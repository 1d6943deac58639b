import TablePlan.Proofs.Execution.Sources

/-!
Choices of one row of each source. The choices are listed in lexicographic order of their row
positions; the row of a choice is the rows chosen side by side, and a reference finds its cell in
the row of its own source.
-/

namespace TablePlan

namespace Source

def row (s : Source) (i : Nat) : Row :=
  s.table.rows.getD i []

theorem map_row_range (s : Source) : (List.range s.table.rows.length).map s.row = s.table.rows := by
  refine List.ext_getElem (by simp) fun i _ within => ?_
  simp [row, List.getElem?_eq_getElem within]

theorem row_mem {s : Source} {i : Nat} (within : i < s.table.rows.length) :
    s.row i ∈ s.table.rows := by
  rw [← s.map_row_range]
  exact List.mem_map_of_mem (List.mem_range.2 within)

theorem length_row {s : Source} (valid : s.table.Valid) {i : Nat}
    (within : i < s.table.rows.length) : (s.row i).length = s.scan.columns.length := by
  rw [scan, Table.qualified, List.length_map]
  exact valid.width _ (row_mem within)

end Source

/-- One position for each source, in the lexicographic order of positions. -/
def choices : List Source → List (List Nat)
  | [] => [[]]
  | s :: sources =>
    (List.range s.table.rows.length).flatMap fun i => (choices sources).map (i :: ·)

def InRange (sources : List Source) (positions : List Nat) : Prop :=
  List.Forall₂ (fun s i => i < s.table.rows.length) sources positions

theorem mem_choices {sources : List Source} {positions : List Nat} :
    positions ∈ choices sources ↔ InRange sources positions := by
  induction sources generalizing positions with
  | nil => simp [choices, InRange]
  | cons s sources ih =>
    rw [choices, InRange, List.forall₂_cons_left_iff]
    simp only [List.mem_flatMap, List.mem_range, List.mem_map, ih]
    constructor
    · rintro ⟨i, within, rest, chosen, rfl⟩
      exact ⟨i, rest, within, chosen, rfl⟩
    · rintro ⟨i, rest, within, chosen, rfl⟩
      exact ⟨i, within, rest, chosen, rfl⟩

theorem pairwise_choices (sources : List Source) :
    (choices sources).Pairwise (List.Lex (· < ·)) := by
  induction sources with
  | nil => exact List.pairwise_singleton _ _
  | cons s sources ih =>
    rw [choices, List.pairwise_flatMap]
    constructor
    · intro i _
      exact List.pairwise_map.2 (ih.imp .cons)
    · refine List.pairwise_lt_range.imp fun {i j} less ps mem qs mem' => ?_
      obtain ⟨rest, _, rfl⟩ := List.mem_map.1 mem
      obtain ⟨rest', _, rfl⟩ := List.mem_map.1 mem'
      exact .rel less

theorem choices_concat (sources : List Source) (s : Source) :
    choices (sources ++ [s]) = (choices sources).flatMap fun positions =>
      (List.range s.table.rows.length).map fun i => positions ++ [i] := by
  induction sources with
  | nil => simp [choices, ← List.map_eq_flatMap]
  | cons first sources ih =>
    rw [List.cons_append, choices, choices, ih, List.flatMap_assoc]
    refine List.flatMap_congr fun i _ => ?_
    rw [List.map_flatMap, List.flatMap_map]
    simp [Function.comp_def]

/-- The cell of a reference in a choice: in the chosen row of the source of its alias. -/
def cellAt : (sources : List Source) → (positions : List Nat) → ColumnRef → Cell
  | s :: sources, i :: positions, ref =>
    if ref.aliasName = some s.aliasName then (s.row i).named s.table.columns ref.column
    else cellAt sources positions ref
  | _, _, _ => .null

def combined (sources : List Source) (positions : List Nat) : Row :=
  (List.zipWith Source.row sources positions).flatten

theorem length_combined {sources : List Source} {positions : List Nat}
    (valid : ∀ s ∈ sources, s.table.Valid) (chosen : InRange sources positions) :
    (combined sources positions).length = (columnsOf sources).length := by
  unfold InRange at chosen
  induction chosen with
  | nil => rfl
  | cons within _ ih =>
    rw [List.forall_mem_cons] at valid
    rw [combined, List.zipWith_cons_cons, List.flatten_cons, List.length_append, columnsOf,
      List.flatMap_cons, List.length_append, Source.length_row valid.1 within]
    exact congrArg _ (ih valid.2)

theorem combined_concat {sources : List Source} {positions : List Nat}
    (same : sources.length = positions.length) (s : Source) (i : Nat) :
    combined (sources ++ [s]) (positions ++ [i]) = combined sources positions ++ s.row i := by
  rw [combined, List.zipWith_append same, List.flatten_append]
  simp [combined]

theorem cellAt_concat_of_mem {sources : List Source} {positions : List Nat} {ref : ColumnRef}
    (same : sources.length = positions.length) {s : Source} (mem : s ∈ sources)
    (named : ref.aliasName = some s.aliasName) (last : Source) (i : Nat) :
    cellAt (sources ++ [last]) (positions ++ [i]) ref = cellAt sources positions ref := by
  induction sources generalizing positions with
  | nil => cases mem
  | cons first sources ih =>
    obtain ⟨j, positions, rfl⟩ := List.exists_cons_of_length_eq_add_one same.symm
    rw [List.cons_append, List.cons_append, cellAt, cellAt]
    split
    · rfl
    · rename_i differ
      obtain rfl | mem := List.mem_cons.1 mem
      · exact absurd named differ
      · exact ih (by simpa using same) mem

theorem named_combined {sources : List Source} (plain : Plain sources) {positions : List Nat}
    (chosen : InRange sources positions) {ref : ColumnRef} (isPlain : ref.IsPlain)
    (present : ref.text ∈ columnsOf sources) :
    (combined sources positions).named (columnsOf sources) ref.text =
      cellAt sources positions ref := by
  obtain ⟨a, c, rfl, dotFree⟩ := isPlain.exists_eq
  induction sources generalizing positions with
  | nil => cases present
  | cons s sources ih =>
    obtain ⟨i, rest, within, others, rfl⟩ := List.forall₂_cons_left_iff.1 chosen
    have width := Source.length_row (plain.valid s List.mem_cons_self) within
    have split : combined (s :: sources) (i :: rest) = s.row i ++ combined sources rest := by
      rw [combined, List.zipWith_cons_cons, List.flatten_cons, combined]
    have columns : columnsOf (s :: sources) = s.scan.columns ++ columnsOf sources :=
      List.flatMap_cons
    rw [split, cellAt, columns]
    by_cases same : a = s.aliasName
    · subst same
      have column : c ∈ s.table.columns :=
        (text_mem_columnsOf plain List.mem_cons_self rfl).1 present
      have scanned : (ColumnRef.qualified s.aliasName c).text ∈ s.scan.columns :=
        List.mem_map_of_mem column
      have named : (ColumnRef.qualified s.aliasName c).aliasName = some s.aliasName := rfl
      rw [if_pos named, Row.named_append_of_mem width scanned]
      exact Row.named_map (Table.qualified_injective s.aliasName) _ _ c
    · have absent : (ColumnRef.qualified a c).text ∉ s.scan.columns := fun mem => by
        obtain ⟨d, _, text⟩ := List.mem_map.1 mem
        rw [ColumnRef.text_qualified_inj (plain.dotFree s List.mem_cons_self) dotFree] at text
        exact same text.1.symm
      rw [columns] at present
      have differ : (ColumnRef.qualified a c).aliasName ≠ some s.aliasName := by
        simpa [ColumnRef.qualified] using same
      rw [if_neg differ, Row.named_append_of_notMem width absent]
      exact ih (plain.sublist (List.sublist_cons_self s sources)) others
        ((List.mem_append.1 present).resolve_left absent)

end TablePlan
