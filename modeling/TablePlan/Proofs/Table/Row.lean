import TablePlan.Table.Basic
import TablePlan.Proofs.Names

/-!
Rows seen through the names of their columns. Columns with a common part in front of their names
and columns side by side show the cells of the rows that they are made of.
-/

namespace TablePlan

namespace Row

/-- The cell under the first column of a name; null when there is none. -/
def named (columns : List String) (row : Row) (name : String) : Cell :=
  ((columns.findIdx? (· == name)).map row.cell).getD .null

theorem named_of_findIdx? {columns : List String} {name : String} {i : Nat}
    (found : columns.findIdx? (· == name) = some i) (row : Row) :
    row.named columns name = row.cell i := by
  simp [named, found]

theorem named_cons (column : String) (columns : List String) (cell : Cell) (row : Row)
    (name : String) :
    named (column :: columns) (cell :: row) name =
      if column = name then cell else named columns row name := by
  unfold named
  rw [List.findIdx?_cons]
  by_cases same : column = name
  · simp [same, Row.cell]
  · have differ : (column == name) = false := by simpa using same
    simp only [differ, same, if_false, Option.map_map, Bool.false_eq_true]
    congr 1

theorem named_append_of_mem {columns : List String} {row : Row} {name : String}
    (width : row.length = columns.length) (mem : name ∈ columns) (more : List String)
    (rest : Row) : named (columns ++ more) (row ++ rest) name = row.named columns name := by
  induction columns generalizing row with
  | nil => cases mem
  | cons column columns ih =>
    obtain ⟨cell, row, rfl⟩ := List.exists_cons_of_length_eq_add_one width
    rw [List.cons_append, List.cons_append, named_cons, named_cons]
    split
    · rfl
    · rename_i differ
      have mem := (List.mem_cons.1 mem).resolve_left fun same => differ same.symm
      exact ih (by simpa using width) mem

theorem named_append_of_notMem {columns : List String} {row : Row} {name : String}
    (width : row.length = columns.length) (absent : name ∉ columns) (more : List String)
    (rest : Row) : named (columns ++ more) (row ++ rest) name = rest.named more name := by
  induction columns generalizing row with
  | nil =>
    rw [List.length_nil, List.length_eq_zero_iff] at width
    rw [width, List.nil_append, List.nil_append]
  | cons column columns ih =>
    obtain ⟨cell, row, rfl⟩ := List.exists_cons_of_length_eq_add_one width
    simp only [List.mem_cons, not_or] at absent
    rw [List.cons_append, List.cons_append, named_cons, if_neg (Ne.symm absent.1)]
    exact ih (by simpa using width) absent.2

theorem findIdx?_map_injective {f : String → String} (injective : Function.Injective f)
    (columns : List String) (name : String) :
    (columns.map f).findIdx? (· == f name) = columns.findIdx? (· == name) := by
  rw [List.findIdx?_map]
  congr 1
  funext other
  simp [injective.eq_iff]

theorem named_map {f : String → String} (injective : Function.Injective f)
    (columns : List String) (row : Row) (name : String) :
    row.named (columns.map f) (f name) = row.named columns name := by
  rw [named, named, findIdx?_map_injective injective]

theorem map_named_self {columns : List String} {row : Row} (distinct : columns.Nodup)
    (width : row.length = columns.length) : columns.map (row.named columns) = row := by
  induction columns generalizing row with
  | nil =>
    rw [List.length_nil, List.length_eq_zero_iff] at width
    rw [width, List.map_nil]
  | cons column columns ih =>
    obtain ⟨cell, row, rfl⟩ := List.exists_cons_of_length_eq_add_one width
    rw [List.nodup_cons] at distinct
    rw [List.map_cons, named_cons, if_pos rfl, List.cons.injEq]
    refine ⟨rfl, ?_⟩
    calc columns.map (named (column :: columns) (cell :: row))
        = columns.map (named columns row) := List.map_congr_left fun name mem => by
          have differ : column ≠ name := fun same => distinct.1 (same ▸ mem)
          rw [named_cons, if_neg differ]
      _ = row := ih distinct.2 (by simpa using width)

theorem named_of_forall₂ {α : Type} {f : α → String} {related : α → Cell → Prop} {as : List α}
    {row : Row} (all : List.Forall₂ related as row) (distinct : (as.map f).Nodup) {a : α}
    (mem : a ∈ as) : related a (row.named (as.map f) (f a)) := by
  induction all with
  | nil => cases mem
  | @cons b cell as row first _ ih =>
    rw [List.map_cons, List.nodup_cons] at distinct
    rw [List.map_cons, named_cons]
    obtain rfl | mem := List.mem_cons.1 mem
    · rwa [if_pos rfl]
    · have differ : f b ≠ f a := fun same => distinct.1 (same ▸ List.mem_map_of_mem mem)
      rw [if_neg differ]
      exact ih distinct.2 mem

end Row

namespace Table

theorem indexOf_eq_ok {t : Table} {name : String} {i : Nat} :
    t.indexOf name = .ok i ↔ t.columns.findIdx? (· == name) = some i := by
  unfold indexOf
  split <;> simp [*]

theorem exists_indexOf_eq_ok {t : Table} {name : String} :
    (∃ i, t.indexOf name = .ok i) ↔ name ∈ t.columns := by
  simp only [indexOf_eq_ok, ← Option.isSome_iff_exists, List.findIdx?_isSome, List.any_eq_true,
    beq_iff_eq, exists_eq_right]

theorem cell_of_indexOf {t : Table} {name : String} {i : Nat} (found : t.indexOf name = .ok i)
    (row : Row) : row.cell i = row.named t.columns name :=
  (Row.named_of_findIdx? (indexOf_eq_ok.1 found) row).symm

end Table

end TablePlan
