import TablePlan.Proofs.Table.Extension

/-!
Joins from the other side. The rows of a join are its matched rows and the rows of each side that
stay without a match; the mirrored join has the same rows with both parts trading places. So it has
the same cells under the same names, the rows in another order, and later joins keep it so.
-/

namespace TablePlan

namespace Table

section Parts

variable (left right : Table) (leftKey rightKey : String)

def matchedRows : List Row :=
  left.rows.flatMap fun a =>
    (right.rows.filter (rowsMatch left right leftKey rightKey a)).map (a ++ ·)

def unmatchedRows : List Row :=
  left.rows.filter fun a => !right.rows.any (rowsMatch left right leftKey rightKey a)

theorem rowsMatch_comm (a b : Row) :
    rowsMatch right left rightKey leftKey b a = rowsMatch left right leftKey rightKey a b :=
  Cell.matches_comm _ _

theorem joinRows_perm (kind : JoinKind) : (joinRows left right leftKey rightKey kind).Perm
    (matchedRows left right leftKey rightKey ++
      ((if kind.keepsLeft then (unmatchedRows left right leftKey rightKey).map
          (· ++ Row.nulls right.columns.length) else []) ++
        if kind.keepsRight then (unmatchedRows right left rightKey leftKey).map
          (Row.nulls left.columns.length ++ ·) else [])) := by
  have single (a : Row) (found : List Row) :
      joinLeftRow kind right.columns.length a found = found.map (a ++ ·) ++
        if found.isEmpty && kind.keepsLeft then [a ++ Row.nulls right.columns.length] else [] := by
    unfold joinLeftRow
    cases found with
    | nil => rfl
    | cons b rest => simp
  have alone : (left.rows.flatMap fun a =>
      if (right.rows.filter (rowsMatch left right leftKey rightKey a)).isEmpty && kind.keepsLeft
        then [a ++ Row.nulls right.columns.length] else []) =
      if kind.keepsLeft then (unmatchedRows left right leftKey rightKey).map
        (· ++ Row.nulls right.columns.length) else [] := by
    cases kind.keepsLeft with
    | false => simp
    | true =>
      rw [if_pos rfl, unmatchedRows, List.map_eq_flatMap, flatMap_filter]
      simp only [isEmpty_filter, Bool.and_true]
  have mirrored : (right.rows.filter fun b =>
      !left.rows.any (rowsMatch left right leftKey rightKey · b)) =
      unmatchedRows right left rightKey leftKey := by
    refine List.filter_congr fun b _ => ?_
    have same : (rowsMatch left right leftKey rightKey · b) =
        rowsMatch right left rightKey leftKey b :=
      funext fun a => (rowsMatch_comm left right leftKey rightKey a b).symm
    rw [same]
  unfold joinRows
  rw [mirrored, ← List.append_assoc, ← alone]
  simp only [single]
  exact (List.flatMap_append_perm _ _ _).symm.append_right _

theorem matchedRows_eq : matchedRows left right leftKey rightKey =
    left.rows.flatMap fun a => right.rows.flatMap fun b =>
      if rowsMatch left right leftKey rightKey a b then [a ++ b] else [] := by
  unfold matchedRows
  simp only [List.map_eq_flatMap, flatMap_filter]

end Parts

end Table

/-- A row with its first part moved behind the rest. -/
def Row.mirrored (width : Nat) (row : Row) : Row :=
  row.drop width ++ row.take width

theorem Row.mirrored_append {width : Nat} {a : Row} (length : a.length = width) (b : Row) :
    (a ++ b).mirrored width = b ++ a := by
  rw [mirrored, List.drop_left' length, List.take_left' length]

namespace Table

variable {left right : Table} {leftKey rightKey : String}

theorem matchedRows_mirror (valid : left.Valid) :
    ((matchedRows left right leftKey rightKey).map (Row.mirrored left.columns.length)).Perm
      (matchedRows right left rightKey leftKey) := by
  have swapped : (matchedRows left right leftKey rightKey).map
      (Row.mirrored left.columns.length) =
      left.rows.flatMap fun a => right.rows.flatMap fun b =>
        if rowsMatch right left rightKey leftKey b a then [b ++ a] else [] := by
    rw [matchedRows_eq, List.map_flatMap]
    refine List.flatMap_congr fun a mem => ?_
    rw [List.map_flatMap]
    refine List.flatMap_congr fun b _ => ?_
    rw [rowsMatch_comm]
    split
    · rw [List.map_singleton, Row.mirrored_append (valid.width a mem)]
    · rfl
  rw [swapped, matchedRows_eq]
  exact flatMap_flatMap_perm _ _ _

theorem joinRows_mirror (valid : left.Valid) (kind : JoinKind) :
    ((joinRows left right leftKey rightKey kind).map (Row.mirrored left.columns.length)).Perm
      (joinRows right left rightKey leftKey kind.swapped) := by
  have lefts : ((unmatchedRows left right leftKey rightKey).map
      (· ++ Row.nulls right.columns.length)).map (Row.mirrored left.columns.length) =
      (unmatchedRows left right leftKey rightKey).map (Row.nulls right.columns.length ++ ·) := by
    rw [List.map_map]
    refine List.map_congr_left fun a mem => ?_
    exact Row.mirrored_append (valid.width a (List.mem_filter.1 mem).1) _
  have rights : ((unmatchedRows right left rightKey leftKey).map
      (Row.nulls left.columns.length ++ ·)).map (Row.mirrored left.columns.length) =
      (unmatchedRows right left rightKey leftKey).map (· ++ Row.nulls left.columns.length) := by
    rw [List.map_map]
    exact List.map_congr_left fun b _ => Row.mirrored_append (Row.length_nulls _) b
  have parts := (joinRows_perm left right leftKey rightKey kind).map
    (Row.mirrored left.columns.length)
  have parts' := joinRows_perm right left rightKey leftKey kind.swapped
  rw [List.map_append, List.map_append, apply_ite (List.map _), apply_ite (List.map _), lefts,
    rights, List.map_nil] at parts
  rw [kind.keepsLeft_swapped, kind.keepsRight_swapped] at parts'
  exact parts.trans (((matchedRows_mirror valid).append List.perm_append_comm).trans parts'.symm)

end Table

namespace Row

theorem carries_mirrored {columns columns' : List String} (distinct : (columns ++ columns').Nodup)
    {row row' : Row} (width : row.length = columns.length)
    (width' : row'.length = columns'.length) :
    Carries (columns' ++ columns) (columns ++ columns') (row' ++ row) (row ++ row') := by
  intro name mem
  by_cases first : name ∈ columns
  · have absent : name ∉ columns' := fun second =>
      (List.nodup_append.1 distinct).2.2 name first name second rfl
    rw [named_append_of_notMem width' absent, named_append_of_mem width first]
  · have second := (List.mem_append.1 mem).resolve_left first
    rw [named_append_of_mem width' second, named_append_of_notMem width first]

end Row

namespace Table

/-- Whether a table holds the cells of another one, with the rows in some order. -/
def Rearranges (t' t : Table) : Prop :=
  ∃ rows, rows.Perm t'.rows ∧ (⟨t'.columns, rows⟩ : Table).Extends t

theorem Rearranges.refl (t : Table) : t.Rearranges t :=
  ⟨t.rows, .refl _, .refl t⟩

theorem Valid.perm {t : Table} (valid : t.Valid) {rows : List Row} (perm : rows.Perm t.rows) :
    (⟨t.columns, rows⟩ : Table).Valid where
  distinct := valid.distinct
  width row mem := valid.width row (perm.subset mem)

section Join

variable {left left' right : Table} {leftKey rightKey : String}

theorem rearranges_mirror (valid : left.Valid) (valid' : right.Valid)
    (distinct : (left.columns ++ right.columns).Nodup) (kind : JoinKind) :
    (⟨right.columns ++ left.columns, joinRows right left rightKey leftKey kind.swapped⟩ :
      Table).Rearranges
      ⟨left.columns ++ right.columns, joinRows left right leftKey rightKey kind⟩ := by
  refine ⟨_, joinRows_mirror valid kind, List.perm_append_comm.subset, ?_⟩
  refine List.forall₂_map_left_iff.2 (List.forall₂_same.2 fun row mem => ?_)
  have width := length_of_mem_joinRows valid valid' mem
  rw [List.length_append] at width
  have first : (row.take left.columns.length).length = left.columns.length := by simp [width]
  have second : (row.drop left.columns.length).length = right.columns.length := by simp [width]
  have carries := Row.carries_mirrored distinct first second
  rwa [List.take_append_drop] at carries

theorem joinRows_perm_left {rows : List Row} (perm : rows.Perm left.rows) (kind : JoinKind) :
    (joinRows ⟨left.columns, rows⟩ right leftKey rightKey kind).Perm
      (joinRows left right leftKey rightKey kind) := by
  have found (b : Row) : rows.any (rowsMatch left right leftKey rightKey · b) =
      left.rows.any (rowsMatch left right leftKey rightKey · b) :=
    perm.any_eq
  unfold joinRows
  refine (perm.flatMap_right _).append ?_
  change List.Perm (if kind.keepsRight then (right.rows.filter fun b =>
    !rows.any (rowsMatch left right leftKey rightKey · b)).map _ else []) _
  simp only [found]
  exact .refl _

theorem Rearranges.join (rearranged : left'.Rearranges left) (valid : left.Valid)
    (valid' : left'.Valid) (distinct : (left'.columns ++ right.columns).Nodup)
    (left_mem : leftKey ∈ left.columns) (right_mem : rightKey ∈ right.columns) (kind : JoinKind) :
    (⟨left'.columns ++ right.columns, joinRows left' right leftKey rightKey kind⟩ :
      Table).Rearranges
      ⟨left.columns ++ right.columns, joinRows left right leftKey rightKey kind⟩ := by
  obtain ⟨rows, perm, extends_left⟩ := rearranged
  have distinct : ((⟨left'.columns, rows⟩ : Table).columns ++ right.columns).Nodup := distinct
  refine ⟨_, joinRows_perm_left perm kind, ?_⟩
  exact extends_left.join distinct (.refl right) valid (valid'.perm perm) left_mem right_mem kind

end Join

def mirrored (t : Table) (width : Nat) : Table :=
  ⟨t.columns.drop width ++ t.columns.take width, t.rows.map (Row.mirrored width)⟩

/-- Two valid tables without a common column are joined from either side, and once the columns are
moved, both joins have the same rows, each of them equally often. -/
theorem join_swapped {left right : Table} {leftKey rightKey : String} (valid : left.Valid)
    (valid' : right.Valid) (apart : ∀ c ∈ right.columns, c ∉ left.columns)
    (left_mem : leftKey ∈ left.columns) (right_mem : rightKey ∈ right.columns) (kind : JoinKind) :
    ∃ t t', left.join right leftKey rightKey kind = .ok t ∧
      right.join left rightKey leftKey kind.swapped = .ok t' ∧
      (t'.mirrored right.columns.length).columns = t.columns ∧
      (t'.mirrored right.columns.length).rows.Perm t.rows := by
  have distinct : (left.columns ++ right.columns).Nodup :=
    List.nodup_append.2 ⟨valid.distinct, valid'.distinct,
      fun c mem d mem' same => apart d mem' (same ▸ mem)⟩
  have distinct' : (right.columns ++ left.columns).Nodup :=
    List.perm_append_comm.nodup_iff.1 distinct
  have rows : ((joinRows right left rightKey leftKey kind.swapped).map
      (Row.mirrored right.columns.length)).Perm
      (joinRows left right leftKey rightKey kind.swapped.swapped) :=
    joinRows_mirror valid' kind.swapped
  rw [kind.swapped_swapped] at rows
  refine ⟨_, _, join_eq_ok.2 ⟨valid, valid', left_mem, right_mem, distinct, rfl⟩,
    join_eq_ok.2 ⟨valid', valid, right_mem, left_mem, distinct', rfl⟩, ?_, rows⟩
  rw [mirrored, List.drop_left, List.take_left]

def employees : Table where
  columns := ["e.dept", "e.level"]
  rows := [[.int 1, .text "senior"], [.int 2, .text "senior"], [.null, .text "junior"],
    [.int 1, .text "junior"]]

def departments : Table where
  columns := ["d.id", "d.name"]
  rows := [[.int 3, .text "ops"], [.int 1, .text "eng"], [.null, .text "legal"],
    [.int 1, .text "engineering"]]

theorem join_swapped_departments : ∃ t t',
    employees.join departments "e.dept" "d.id" .left = .ok t ∧
      departments.join employees "d.id" "e.dept" .right = .ok t' ∧
      (t'.mirrored 2).columns = t.columns ∧ (t'.mirrored 2).rows.Perm t.rows := by
  have valid : employees.Valid := ⟨by decide, by decide⟩
  have valid' : departments.Valid := ⟨by decide, by decide⟩
  exact join_swapped valid valid' (by decide) (by decide) (by decide) .left

end Table

end TablePlan
