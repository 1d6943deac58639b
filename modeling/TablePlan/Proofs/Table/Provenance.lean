import TablePlan.Proofs.Table.Mirror

/-!
Where the rows of a join come from. The part of a row under the columns of one table is a row of
this table, or it is made of nulls; a table whose rows all stay has every one of its rows as a part.
A further join keeps the parts of its left side, and all rows of a side that its kind protects.
-/

namespace TablePlan

namespace Table

/-- The cells of a row of `t` under the columns of `s`. -/
def part (t s : Table) (row : Row) : Row :=
  s.columns.map (row.named t.columns)

/-- Every row shows a row of `s`, or nulls in its place. -/
def Shows (t s : Table) : Prop :=
  ∀ row ∈ t.rows, t.part s row ∈ s.rows ∨ t.part s row = Row.nulls s.columns.length

/-- Every row of `s` is shown by some row. -/
def Keeps (t s : Table) : Prop :=
  ∀ row ∈ s.rows, ∃ shown ∈ t.rows, t.part s shown = row

theorem part_self {t : Table} (valid : t.Valid) {row : Row} (mem : row ∈ t.rows) :
    t.part t row = row :=
  Row.map_named_self valid.distinct (valid.width row mem)

theorem Valid.shows_self {t : Table} (valid : t.Valid) : t.Shows t :=
  fun _ mem => .inl ((part_self valid mem).symm ▸ mem)

theorem Valid.keeps_self {t : Table} (valid : t.Valid) : t.Keeps t :=
  fun row mem => ⟨row, mem, part_self valid mem⟩

theorem part_nulls (t s : Table) (width : Nat) :
    t.part s (Row.nulls width) = Row.nulls s.columns.length := by
  rw [part, funext (Row.named_nulls t.columns width), List.map_const']
  rfl

def joinedWith (left right : Table) (leftKey rightKey : String) (kind : JoinKind) : Table :=
  ⟨left.columns ++ right.columns, joinRows left right leftKey rightKey kind⟩

section Join

variable {left right s : Table} {leftKey rightKey : String} {kind : JoinKind}

theorem mem_joinRows {row : Row} : row ∈ joinRows left right leftKey rightKey kind ↔
    (∃ a ∈ left.rows, ∃ b ∈ right.rows,
      rowsMatch left right leftKey rightKey a b = true ∧ row = a ++ b) ∨
    (kind.keepsLeft = true ∧ ∃ a ∈ unmatchedRows left right leftKey rightKey,
      row = a ++ Row.nulls right.columns.length) ∨
    (kind.keepsRight = true ∧ ∃ b ∈ unmatchedRows right left rightKey leftKey,
      row = Row.nulls left.columns.length ++ b) := by
  have matched : row ∈ matchedRows left right leftKey rightKey ↔ ∃ a ∈ left.rows,
      ∃ b ∈ right.rows, rowsMatch left right leftKey rightKey a b = true ∧ row = a ++ b := by
    simp only [matchedRows, List.mem_flatMap, List.mem_map, List.mem_filter, and_assoc,
      eq_comm (a := row)]
  have kept (keeps : Bool) (rows : List Row) (pad : Row → Row) :
      row ∈ (if keeps then rows.map pad else []) ↔
        keeps = true ∧ ∃ a ∈ rows, row = pad a := by
    cases keeps <;> simp [eq_comm]
  rw [(joinRows_perm left right leftKey rightKey kind).mem_iff, List.mem_append, List.mem_append,
    matched, kept, kept]

theorem match_or_unmatched (right : Table) (leftKey rightKey : String) {a : Row}
    (mem : a ∈ left.rows) :
    (∃ b ∈ right.rows, rowsMatch left right leftKey rightKey a b = true) ∨
      a ∈ unmatchedRows left right leftKey rightKey := by
  rw [unmatchedRows, List.mem_filter, Bool.not_eq_true', ← Bool.not_eq_true, List.any_eq_true]
  by_cases found : ∃ b ∈ right.rows, rowsMatch left right leftKey rightKey a b = true
  · exact .inl found
  · exact .inr ⟨mem, found⟩

theorem unmatchedRows_subset : unmatchedRows left right leftKey rightKey ⊆ left.rows :=
  List.filter_subset_self _

theorem part_joinedWith_left {a : Row} (width : a.length = left.columns.length)
    (sub : s.columns ⊆ left.columns) (b : Row) :
    (left.joinedWith right leftKey rightKey kind).part s (a ++ b) = left.part s a :=
  List.map_congr_left fun _ mem => Row.named_append_of_mem width (sub mem) right.columns b

theorem part_joinedWith_right (distinct : (left.columns ++ right.columns).Nodup) {a : Row}
    (width : a.length = left.columns.length) (b : Row) :
    (left.joinedWith right leftKey rightKey kind).part right (a ++ b) = right.part right b := by
  refine List.map_congr_left fun name mem => ?_
  have absent : name ∉ left.columns := fun old =>
    (List.nodup_append.1 distinct).2.2 name old name mem rfl
  exact Row.named_append_of_notMem width absent right.columns b

theorem Shows.joinedWith (shown : left.Shows s) (valid : left.Valid)
    (sub : s.columns ⊆ left.columns) :
    (left.joinedWith right leftKey rightKey kind).Shows s := by
  have of_left {a : Row} (mem : a ∈ left.rows) (b : Row) :
      (left.joinedWith right leftKey rightKey kind).part s (a ++ b) = left.part s a :=
    part_joinedWith_left (valid.width a mem) sub b
  intro row mem
  obtain ⟨a, of_a, b, _, _, rfl⟩ | ⟨_, a, alone, rfl⟩ | ⟨_, b, _, rfl⟩ := mem_joinRows.1 mem
  · rw [of_left of_a]
    exact shown a of_a
  · rw [of_left (unmatchedRows_subset alone)]
    exact shown a (unmatchedRows_subset alone)
  · rw [part_joinedWith_left (Row.length_nulls _) sub, part_nulls]
    exact .inr rfl

theorem Keeps.joinedWith (keeps : left.Keeps s) (valid : left.Valid)
    (sub : s.columns ⊆ left.columns) (kept : kind.keepsLeft = true) :
    (left.joinedWith right leftKey rightKey kind).Keeps s := by
  intro row mem
  obtain ⟨a, of_a, same⟩ := keeps row mem
  have shown (b : Row) :
      (left.joinedWith right leftKey rightKey kind).part s (a ++ b) = row :=
    (part_joinedWith_left (valid.width a of_a) sub b).trans same
  obtain ⟨b, of_b, found⟩ | alone := match_or_unmatched right leftKey rightKey of_a
  · exact ⟨a ++ b, mem_joinRows.2 (.inl ⟨a, of_a, b, of_b, found, rfl⟩), shown b⟩
  · exact ⟨_, mem_joinRows.2 (.inr (.inl ⟨kept, a, alone, rfl⟩)), shown _⟩

variable (distinct : (left.columns ++ right.columns).Nodup) (valid : left.Valid)
  (valid' : right.Valid)

include distinct valid valid'

theorem shows_right : (left.joinedWith right leftKey rightKey kind).Shows right := by
  intro row mem
  obtain ⟨a, of_a, b, of_b, _, rfl⟩ | ⟨_, a, alone, rfl⟩ | ⟨_, b, alone, rfl⟩ :=
    mem_joinRows.1 mem
  · rw [part_joinedWith_right distinct (valid.width a of_a)]
    exact valid'.shows_self b of_b
  · have of_a := unmatchedRows_subset alone
    rw [part_joinedWith_right distinct (valid.width a of_a), part_nulls]
    exact .inr rfl
  · rw [part_joinedWith_right distinct (Row.length_nulls _)]
    exact valid'.shows_self b (unmatchedRows_subset alone)

theorem keeps_right (kept : kind.keepsRight = true) :
    (left.joinedWith right leftKey rightKey kind).Keeps right := by
  intro b of_b
  obtain ⟨a, of_a, found⟩ | alone := match_or_unmatched left rightKey leftKey of_b
  · rw [rowsMatch_comm] at found
    refine ⟨a ++ b, mem_joinRows.2 (.inl ⟨a, of_a, b, of_b, found, rfl⟩), ?_⟩
    rw [part_joinedWith_right distinct (valid.width a of_a), part_self valid' of_b]
  · refine ⟨_, mem_joinRows.2 (.inr (.inr ⟨kept, b, alone, rfl⟩)), ?_⟩
    rw [part_joinedWith_right distinct (Row.length_nulls _), part_self valid' of_b]

end Join

end Table

end TablePlan
