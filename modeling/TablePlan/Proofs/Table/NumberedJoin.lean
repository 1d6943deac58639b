import TablePlan.Proofs.Table.Matching
import TablePlan.Proofs.Table.Reading

/-!
A join that works with numbers of rows: an index of the right rows holds their numbers by key, and
each right row has a mark that tells whether a left row has matched it. Every read of a cell, of a
row and of a mark is checked, and none of them fails.
-/

namespace TablePlan

section Numbers

variable {α : Type}

def numbersWhere (p : α → Bool) (as : List α) : List Nat :=
  (as.zipIdx.filter fun e => p e.1).map Prod.snd

theorem mem_numbersWhere {p : α → Bool} {as : List α} {n : Nat} :
    n ∈ numbersWhere p as ↔ ∃ a, as[n]? = some a ∧ p a = true := by
  simp [numbersWhere, List.mem_zipIdx_iff_getElem?]

theorem map_fst_filter_zipIdx (p : α → Bool) (as : List α) :
    (as.zipIdx.filter fun e => p e.1).map Prod.fst = as.filter p := by
  conv_rhs => rw [← List.zipIdx_map_fst 0 as, List.filter_map]
  rfl

theorem mapM_numbersWhere (p : α → Bool) (as : List α) :
    (numbersWhere p as).mapM (as[·]?) = some (as.filter p) := by
  rw [numbersWhere, List.mapM_map, ← map_fst_filter_zipIdx p as]
  refine mapM_eq_some_map (g := Prod.fst) fun e mem => ?_
  exact List.mem_zipIdx_iff_getElem?.1 (List.mem_filter.1 mem).1

def mark? : List Bool → List Nat → Option (List Bool)
  | marks, [] => some marks
  | marks, n :: ns => do
    let _ ← marks[n]?
    mark? (marks.set n true) ns

theorem mark?_eq {marks : List Bool} {ns : List Nat} (within : ∀ n ∈ ns, n < marks.length) :
    mark? marks ns = some (marks.mapIdx fun n mark => mark || ns.contains n) := by
  induction ns generalizing marks with
  | nil => exact congrArg some (List.ext_getElem (by simp) (by simp))
  | cons n ns ih =>
    rw [List.forall_mem_cons] at within
    rw [mark?, List.getElem?_eq_getElem within.1]
    refine (ih (by simpa using within.2)).trans (congrArg some ?_)
    refine List.ext_getElem (by simp) fun k _ _ => ?_
    obtain rfl | differ := eq_or_ne n k
    · simp
    · simp [differ, differ.symm]

theorem mark?_numbersWhere (p q : α → Bool) (as : List α) :
    mark? (as.map p) (numbersWhere q as) = some (as.map fun a => p a || q a) := by
  rw [mark?_eq]
  · refine congrArg some (List.ext_getElem (by simp) fun n _ within => ?_)
    have within : n < as.length := by simpa using within
    have marked : (numbersWhere q as).contains n = q as[n] := by
      rw [Bool.eq_iff_iff, List.contains_iff_mem, mem_numbersWhere]
      simp [List.getElem?_eq_getElem within]
    simp only [List.getElem_mapIdx, List.getElem_map, marked]
  · intro n mem
    obtain ⟨a, found, _⟩ := mem_numbersWhere.1 mem
    rw [List.length_map]
    exact (List.getElem?_eq_some_iff.1 found).1

end Numbers

/-- Numbers of rows by the key of one of their cells. -/
abbrev KeyNumbers := Std.HashMap CellKey (List Nat)

namespace KeyNumbers

def lookup (index : KeyNumbers) (cell : Cell) : List Nat :=
  if cell.isNull then [] else index.getD cell.key []

/-- Adds a number behind the others of its key; a null has no key. -/
def add (index : KeyNumbers) (cell : Cell) (number : Nat) : KeyNumbers :=
  if cell.isNull then index
  else index.insert cell.key (index.getD cell.key [] ++ [number])

def addRows? (position : Nat) : KeyNumbers → List (Row × Nat) → Option KeyNumbers
  | index, [] => some index
  | index, (row, number) :: rows => do
    let cell ← row.cell? position
    addRows? position (index.add cell number) rows

theorem lookup_add (index : KeyNumbers) (cell other : Cell) (number : Nat) :
    (index.add cell number).lookup other =
      index.lookup other ++ if other.matches cell then [number] else [] := by
  unfold add lookup Cell.matches
  cases h : cell.isNull <;> cases h' : other.isNull <;> simp [Std.HashMap.getD_insert]
  by_cases same : cell.key = other.key
  · simp [same]
  · simp [same, Ne.symm same]

theorem exists_addRows? {position : Nat} {rows : List (Row × Nat)}
    (there : ∀ e ∈ rows, e.1.cell? position = some (e.1.cell position)) (index : KeyNumbers) :
    ∃ added, addRows? position index rows = some added ∧ ∀ cell, added.lookup cell =
      index.lookup cell ++
        (rows.filter fun e => cell.matches (e.1.cell position)).map Prod.snd := by
  induction rows generalizing index with
  | nil => exact ⟨index, rfl, by simp⟩
  | cons e rows ih =>
    rw [List.forall_mem_cons] at there
    obtain ⟨added, made, lookups⟩ := ih there.2 (index.add (e.1.cell position) e.2)
    refine ⟨added, ?_, fun cell => ?_⟩
    · rw [addRows?, there.1]
      exact made
    · rw [lookups, lookup_add, List.append_assoc, List.filter_cons]
      cases cell.matches (e.1.cell position) <;> rfl

theorem exists_ofRows? {position : Nat} {rows : List Row}
    (there : ∀ row ∈ rows, row.cell? position = some (row.cell position)) :
    ∃ index, addRows? position ∅ rows.zipIdx = some index ∧ ∀ cell, index.lookup cell =
      numbersWhere (fun row => cell.matches (row.cell position)) rows := by
  obtain ⟨index, made, lookups⟩ := exists_addRows?
    (fun e mem => there e.1 (List.fst_mem_of_mem_zipIdx mem)) (∅ : KeyNumbers)
  refine ⟨index, made, fun cell => ?_⟩
  rw [lookups, numbersWhere]
  simp [lookup]

end KeyNumbers

namespace Table

/-- The joined rows of left rows one by one, with the marks of the right rows after them. -/
def joinLeftRows? (kind : JoinKind) (position width : Nat) (rightRows : List Row)
    (index : KeyNumbers) : List Bool → List Row → Option (List Row × List Bool)
  | marks, [] => some ([], marks)
  | marks, row :: rows => do
    let cell ← row.cell? position
    let marks ← mark? marks (index.lookup cell)
    let found ← (index.lookup cell).mapM (rightRows[·]?)
    let (joined, marks) ← joinLeftRows? kind position width rightRows index marks rows
    return (joinLeftRow kind width row found ++ joined, marks)

theorem joinLeftRows?_eq {kind : JoinKind} {i j width : Nat} {rows rightRows : List Row}
    {index : KeyNumbers} (there : ∀ row ∈ rows, row.cell? i = some (row.cell i))
    (lookups : ∀ cell, index.lookup cell =
      numbersWhere (fun row => cell.matches (row.cell j)) rightRows) (p : Row → Bool) :
    joinLeftRows? kind i width rightRows index (rightRows.map p) rows =
      some (rows.flatMap fun row => joinLeftRow kind width row
          (rightRows.filter fun other => (row.cell i).matches (other.cell j)),
        rightRows.map fun other =>
          p other || rows.any fun row => (row.cell i).matches (other.cell j)) := by
  induction rows generalizing p with
  | nil => simp [joinLeftRows?]
  | cons row rows ih =>
    rw [List.forall_mem_cons] at there
    have rest := ih there.2 fun other => p other || (row.cell i).matches (other.cell j)
    simp only [joinLeftRows?, there.1, lookups, mark?_numbersWhere, mapM_numbersWhere,
      Option.bind_eq_bind, Option.bind_some, rest, List.flatMap_cons, List.any_cons, Bool.or_assoc]
    rfl

def unmarked? (marks : List Bool) (rows : List Row) : Option (List Row) := do
  let found ← select? (fun e => do
    let mark ← marks[e.2]?
    return !mark) rows.zipIdx
  return found.map Prod.fst

theorem unmarked?_map (p : Row → Bool) (rows : List Row) :
    unmarked? (rows.map p) rows = some (rows.filter fun row => !p row) := by
  have found : select? (fun e => do
      let mark ← (rows.map p)[e.2]?
      return !mark) rows.zipIdx = some (rows.zipIdx.filter fun e => !p e.1) := by
    refine select?_eq_filter fun e mem => ?_
    rw [List.getElem?_map, List.mem_zipIdx_iff_getElem?.1 mem]
    rfl
  rw [unmarked?, found, ← map_fst_filter_zipIdx (fun row => !p row)]
  rfl

def join? (left right : Table) (leftKey rightKey : String) (kind : JoinKind) : Reading Table := do
  Reading.ofExcept left.validate
  Reading.ofExcept right.validate
  let i ← Reading.ofExcept (left.indexOf leftKey)
  let j ← Reading.ofExcept (right.indexOf rightKey)
  let index ← Reading.ofOption (KeyNumbers.addRows? j ∅ right.rows.zipIdx)
  let (joined, marks) ← Reading.ofOption (joinLeftRows? kind i right.columns.length right.rows index
    (List.replicate right.rows.length false) left.rows)
  let kept ← Reading.ofOption (if kind.keepsRight then unmarked? marks right.rows else some [])
  Reading.ofExcept (ofRows (left.columns ++ right.columns)
    (joined ++ kept.map (Row.nulls left.columns.length ++ ·)))

theorem join?_eq (left right : Table) (leftKey rightKey : String) (kind : JoinKind) :
    left.join? right leftKey rightKey kind =
      Reading.ofExcept (left.join right leftKey rightKey kind) := by
  unfold join? join
  refine Reading.ofExcept_bind fun _ valid => Reading.ofExcept_bind fun _ valid' => ?_
  refine Reading.ofExcept_bind fun i at_left => Reading.ofExcept_bind fun j at_right => ?_
  have left_cell : ∀ row ∈ left.rows, row.cell? i = some (row.cell i) :=
    fun row mem => (validate_eq_ok_iff.1 valid).cell?_eq mem at_left
  have right_cell : ∀ row ∈ right.rows, row.cell? j = some (row.cell j) :=
    fun row mem => (validate_eq_ok_iff.1 valid').cell?_eq mem at_right
  obtain ⟨index, made, lookups⟩ := KeyNumbers.exists_ofRows? right_cell
  have unset : List.replicate right.rows.length false = right.rows.map fun _ => false :=
    List.map_const'.symm
  rw [Reading.ofOption_bind made, unset,
    Reading.ofOption_bind (joinLeftRows?_eq left_cell lookups fun _ => false)]
  dsimp only
  rw [unmarked?_map]
  have mirrored (a b : Row) : (a.cell i).matches (b.cell j) = (b.cell j).matches (a.cell i) :=
    Cell.matches_comm _ _
  simp only [KeyIndex.lookup_ofRows, isEmpty_filter, Bool.false_or, mirrored]
  cases kind.keepsRight <;> rfl

end Table

end TablePlan
