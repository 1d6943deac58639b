import TablePlan.Proofs.Table.Fault
import TablePlan.Proofs.Table.NumberedJoin

/-!
The meaning of a join by two nested loops over the rows of both sides, without an index. Every join
answers the rows of these loops or the error of its first check that fails, whether it looks up rows
by key or numbers of rows with marks for those that are matched.
-/

namespace TablePlan.Table

section Loops

variable (left right : Table) (leftKey rightKey : String)

/-- Whether two rows belong together: neither key cell is null, and both have the same key. -/
def Partners (a b : Row) : Prop :=
  (a.named left.columns leftKey).isNull = false ∧ (b.named right.columns rightKey).isNull = false ∧
    (a.named left.columns leftKey).key = (b.named right.columns rightKey).key

instance (a b : Row) : Decidable (Partners left right leftKey rightKey a b) :=
  inferInstanceAs (Decidable (_ ∧ _ ∧ _))

/-- The rows that one left row makes with the right rows, or alone if it stays without any. -/
def rowsOfLeft (kind : JoinKind) (a : Row) : List Row :=
  if ∃ b ∈ right.rows, Partners left right leftKey rightKey a b then
    right.rows.flatMap fun b =>
      if Partners left right leftKey rightKey a b then [a ++ b] else []
  else if kind = .left ∨ kind = .full then [a ++ Row.nulls right.columns.length]
  else []

/-- The row that a right row makes if it stays without any left row. -/
def rowsOfRight (kind : JoinKind) (b : Row) : List Row :=
  if (kind = .right ∨ kind = .full) ∧ ¬ ∃ a ∈ left.rows, Partners left right leftKey rightKey a b
  then [Row.nulls left.columns.length ++ b]
  else []

def nestedLoops (kind : JoinKind) : List Row :=
  left.rows.flatMap (rowsOfLeft left right leftKey rightKey kind) ++
    right.rows.flatMap (rowsOfRight left right leftKey rightKey kind)

variable {left right leftKey rightKey}

theorem rowsMatch_eq_true {a b : Row} :
    rowsMatch left right leftKey rightKey a b = true ↔ Partners left right leftKey rightKey a b :=
  Cell.matches_iff

theorem joinLeftRow_eq_rowsOfLeft (kind : JoinKind) (a : Row) :
    joinLeftRow kind right.columns.length a
        (right.rows.filter (rowsMatch left right leftKey rightKey a)) =
      rowsOfLeft left right leftKey rightKey kind a := by
  have paired : (right.rows.filter (rowsMatch left right leftKey rightKey a)).map (a ++ ·) =
      right.rows.flatMap fun b =>
        if Partners left right leftKey rightKey a b then [a ++ b] else [] := by
    rw [List.map_eq_flatMap, flatMap_filter]
    simp only [rowsMatch_eq_true]
  have alone : (right.rows.filter (rowsMatch left right leftKey rightKey a)).isEmpty = true ↔
      ¬ ∃ b ∈ right.rows, Partners left right leftKey rightKey a b := by
    simp [isEmpty_filter, rowsMatch_eq_true]
  unfold joinLeftRow rowsOfLeft
  simp only [alone, JoinKind.keepsLeft_iff, paired, ite_not]

theorem joinRows_eq_nestedLoops (kind : JoinKind) :
    joinRows left right leftKey rightKey kind = nestedLoops left right leftKey rightKey kind := by
  have lefts : left.rows.flatMap (fun a => joinLeftRow kind right.columns.length a
      (right.rows.filter (rowsMatch left right leftKey rightKey a))) =
      left.rows.flatMap (rowsOfLeft left right leftKey rightKey kind) :=
    List.flatMap_congr fun a _ => joinLeftRow_eq_rowsOfLeft kind a
  have rights : (if kind.keepsRight then (right.rows.filter fun b =>
        !left.rows.any (rowsMatch left right leftKey rightKey · b)).map
        (Row.nulls left.columns.length ++ ·) else []) =
      right.rows.flatMap (rowsOfRight left right leftKey rightKey kind) := by
    have alone (b : Row) : (!left.rows.any (rowsMatch left right leftKey rightKey · b)) = true ↔
        ¬ ∃ a ∈ left.rows, Partners left right leftKey rightKey a b := by
      simp [rowsMatch_eq_true]
    unfold rowsOfRight
    by_cases keeps : kind = .right ∨ kind = .full
    · rw [if_pos (JoinKind.keepsRight_iff.2 keeps), List.map_eq_flatMap, flatMap_filter]
      simp only [alone, keeps, true_and]
    · rw [if_neg (mt JoinKind.keepsRight_iff.1 keeps)]
      simp [keeps]
  rw [joinRows, nestedLoops, lefts, rights]

end Loops

/-- What a join answers: the error of the first check that fails, or the rows of the loops. -/
inductive JoinAnswer (left right : Table) (leftKey rightKey : String) (kind : JoinKind) :
    Except TableError Table → Prop
  | left_fault {e} (fault : left.Fault e) : JoinAnswer left right leftKey rightKey kind (.error e)
  | right_fault (valid : left.Valid) {e} (fault : right.Fault e) :
    JoinAnswer left right leftKey rightKey kind (.error e)
  | left_key (valid : left.Valid) (valid' : right.Valid) (absent : leftKey ∉ left.columns) :
    JoinAnswer left right leftKey rightKey kind (.error (.unknownColumn leftKey))
  | right_key (valid : left.Valid) (valid' : right.Valid) (left_mem : leftKey ∈ left.columns)
    (absent : rightKey ∉ right.columns) :
    JoinAnswer left right leftKey rightKey kind (.error (.unknownColumn rightKey))
  | shared (valid : left.Valid) (valid' : right.Valid) (left_mem : leftKey ∈ left.columns)
    (right_mem : rightKey ∈ right.columns) {before name after}
    (columns : right.columns = before ++ name :: after) (fresh : ∀ c ∈ before, c ∉ left.columns)
    (common : name ∈ left.columns) :
    JoinAnswer left right leftKey rightKey kind (.error (.duplicateColumn name))
  | rows (valid : left.Valid) (valid' : right.Valid) (left_mem : leftKey ∈ left.columns)
    (right_mem : rightKey ∈ right.columns) (apart : ∀ c ∈ right.columns, c ∉ left.columns) :
    JoinAnswer left right leftKey rightKey kind
      (.ok ⟨left.columns ++ right.columns, nestedLoops left right leftKey rightKey kind⟩)

variable {left right : Table} {leftKey rightKey : String} {kind : JoinKind}
  {answer : Except TableError Table}

theorem fault_of_shared (valid : left.Valid) (valid' : right.Valid) {before after : List String}
    {name : String} (columns : right.columns = before ++ name :: after)
    (fresh : ∀ c ∈ before, c ∉ left.columns) (common : name ∈ left.columns) (rows : List Row) :
    Fault ⟨left.columns ++ right.columns, rows⟩ (.duplicateColumn name) := by
  have distinct : before.Nodup := by
    have all := valid'.distinct
    rw [columns] at all
    exact (List.nodup_append.1 all).1
  have split : left.columns ++ right.columns = (left.columns ++ before) ++ name :: after := by
    rw [columns, List.append_assoc]
  refine .repeated split ?_ ?_
  · exact List.nodup_append.2 ⟨valid.distinct, distinct,
      fun c mem d mem' same => fresh d mem' (same ▸ mem)⟩
  · exact List.mem_append_left _ common

theorem JoinAnswer.join_eq (answers : JoinAnswer left right leftKey rightKey kind answer) :
    left.join right leftKey rightKey kind = answer := by
  cases answers with
  | left_fault fault =>
    rw [join, validate_eq_error_iff.2 fault]
    rfl
  | right_fault valid fault =>
    rw [join, validate_eq_ok_iff.2 valid, validate_eq_error_iff.2 fault]
    rfl
  | left_key valid valid' absent =>
    rw [join, validate_eq_ok_iff.2 valid, validate_eq_ok_iff.2 valid',
      indexOf_eq_error_iff.2 ⟨absent, rfl⟩]
    rfl
  | right_key valid valid' left_mem absent =>
    obtain ⟨i, at_left⟩ := exists_indexOf_eq_ok.2 left_mem
    rw [join, validate_eq_ok_iff.2 valid, validate_eq_ok_iff.2 valid', at_left,
      indexOf_eq_error_iff.2 ⟨absent, rfl⟩]
    rfl
  | shared valid valid' left_mem right_mem columns fresh common =>
    obtain ⟨i, at_left⟩ := exists_indexOf_eq_ok.2 left_mem
    obtain ⟨j, at_right⟩ := exists_indexOf_eq_ok.2 right_mem
    rw [join, validate_eq_ok_iff.2 valid, validate_eq_ok_iff.2 valid', at_left, at_right]
    exact ofRows_eq_error_iff.2 (fault_of_shared valid valid' columns fresh common _)
  | rows valid valid' left_mem right_mem apart =>
    rw [← joinRows_eq_nestedLoops]
    refine join_eq_ok.2 ⟨valid, valid', left_mem, right_mem, ?_, rfl⟩
    exact List.nodup_append.2 ⟨valid.distinct, valid'.distinct,
      fun c mem d mem' same => apart d mem' (same ▸ mem)⟩

theorem join_of_nodup {left right : Table} (valid : left.Valid) (valid' : right.Valid)
    (distinct : (left.columns ++ right.columns).Nodup) (leftKey rightKey : String)
    (kind : JoinKind) :
    (∃ name, left.join right leftKey rightKey kind = .error (.unknownColumn name)) ∨
      ∃ t, left.join right leftKey rightKey kind = .ok t ∧ t.Valid ∧
        t.columns = left.columns ++ right.columns := by
  by_cases left_mem : leftKey ∈ left.columns
  swap
  · exact .inl ⟨leftKey, (JoinAnswer.left_key valid valid' left_mem).join_eq⟩
  by_cases right_mem : rightKey ∈ right.columns
  swap
  · exact .inl ⟨rightKey, (JoinAnswer.right_key valid valid' left_mem right_mem).join_eq⟩
  refine .inr ⟨_, join_eq_ok.2 ⟨valid, valid', left_mem, right_mem, distinct, rfl⟩,
    ⟨distinct, fun row mem => ?_⟩, rfl⟩
  exact length_of_mem_joinRows valid valid' mem

theorem exists_joinAnswer (left right : Table) (leftKey rightKey : String) (kind : JoinKind) :
    ∃ answer, JoinAnswer left right leftKey rightKey kind answer := by
  obtain valid | ⟨e, fault⟩ := left.valid_or_fault
  swap
  · exact ⟨_, .left_fault fault⟩
  obtain valid' | ⟨e, fault⟩ := right.valid_or_fault
  swap
  · exact ⟨_, .right_fault valid fault⟩
  by_cases left_mem : leftKey ∈ left.columns
  swap
  · exact ⟨_, .left_key valid valid' left_mem⟩
  by_cases right_mem : rightKey ∈ right.columns
  swap
  · exact ⟨_, .right_key valid valid' left_mem right_mem⟩
  cases common : right.columns.find? (· ∈ left.columns) with
  | none =>
    have apart : ∀ c ∈ right.columns, c ∉ left.columns := by simpa using common
    exact ⟨_, .rows valid valid' left_mem right_mem apart⟩
  | some name =>
    obtain ⟨mem, before, after, columns, fresh⟩ := List.find?_eq_some_iff_append.1 common
    exact ⟨_, .shared valid valid' left_mem right_mem columns (by simpa using fresh)
      (of_decide_eq_true mem)⟩

/-- A join answers exactly what two nested loops answer behind its checks, and so does the join by
numbers of rows, with an index from keys to right rows and a mark for each right row that has been
matched. -/
theorem join_answers (left right : Table) (leftKey rightKey : String) (kind : JoinKind)
    (answer : Except TableError Table) :
    (left.join right leftKey rightKey kind = answer ↔
      JoinAnswer left right leftKey rightKey kind answer) ∧
    (left.join? right leftKey rightKey kind = Reading.ofExcept answer ↔
      JoinAnswer left right leftKey rightKey kind answer) := by
  have exact : left.join right leftKey rightKey kind = answer ↔
      JoinAnswer left right leftKey rightKey kind answer := by
    refine ⟨fun same => ?_, JoinAnswer.join_eq⟩
    obtain ⟨answer', answers⟩ := exists_joinAnswer left right leftKey rightKey kind
    rwa [← same, answers.join_eq]
  rw [join?_eq, Reading.ofExcept_inj]
  exact ⟨exact, exact⟩

end TablePlan.Table
