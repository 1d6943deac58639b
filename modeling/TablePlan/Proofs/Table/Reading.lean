import TablePlan.Proofs.StableSort
import TablePlan.Proofs.Table.Grouping

/-!
Table operations in which every read is checked: an operation has no answer once it reads something
that is not there. Filters, projections and sorts read cells of valid tables only, at positions of
their columns, and so their answers are those of the operations themselves.
-/

namespace TablePlan

open Success

/-- An answer of an operation, or none once something is read that is not there. -/
abbrev Reading := ExceptT TableError Option

namespace Reading

variable {α β : Type}

def ofExcept (answer : Except TableError α) : Reading α :=
  ExceptT.mk (some answer)

def ofOption (found : Option α) : Reading α :=
  ExceptT.lift found

theorem ofExcept_inj {answer answer' : Except TableError α} :
    ofExcept answer = ofExcept answer' ↔ answer = answer' :=
  Option.some_inj

theorem ofExcept_bind {answer : Except TableError α} {next : α → Reading β}
    {next' : α → Except TableError β}
    (same : ∀ a, answer = .ok a → next a = ofExcept (next' a)) :
    (ofExcept answer >>= next) = ofExcept (answer >>= next') := by
  cases answer with
  | ok a => exact same a rfl
  | error e => rfl

theorem mapM_ofExcept {f : α → Reading β} {g : α → Except TableError β} {as : List α}
    (same : ∀ a ∈ as, f a = ofExcept (g a)) : as.mapM f = ofExcept (as.mapM g) := by
  induction as with
  | nil => rfl
  | cons a as ih =>
    rw [List.forall_mem_cons] at same
    rw [List.mapM_cons, List.mapM_cons, same.1, ih same.2]
    exact ofExcept_bind fun _ _ => ofExcept_bind fun _ _ => rfl

theorem ofOption_bind {found : Option α} {a : α} (there : found = some a)
    (next : α → Reading β) : (ofOption found >>= next) = next a := by
  rw [there]
  rfl

end Reading

section Lists

variable {α β : Type}

theorem mapM_eq_some_map {f : α → Option β} {g : α → β} {as : List α}
    (there : ∀ a ∈ as, f a = some (g a)) : as.mapM f = some (as.map g) := by
  induction as with
  | nil => rfl
  | cons a as ih =>
    rw [List.forall_mem_cons] at there
    rw [List.mapM_cons, there.1, ih there.2]
    rfl

def select? (test : α → Option Bool) : List α → Option (List α)
  | [] => some []
  | a :: as => do
    let passed ← test a
    let rest ← select? test as
    return if passed then a :: rest else rest

theorem select?_eq_filter {test : α → Option Bool} {p : α → Bool} {as : List α}
    (there : ∀ a ∈ as, test a = some (p a)) : select? test as = some (as.filter p) := by
  induction as with
  | nil => rfl
  | cons a as ih =>
    rw [List.forall_mem_cons] at there
    rw [select?, there.1, ih there.2, List.filter_cons]
    rfl

end Lists

namespace Row

def cell? (row : Row) (position : Nat) : Option Cell :=
  row[position]?

theorem cell?_eq {row : Row} {position : Nat} (within : position < row.length) :
    row.cell? position = some (row.cell position) := by
  rw [cell?, cell, List.getD_eq_getElem?_getD, List.getElem?_eq_getElem within, Option.getD_some]

end Row

namespace Table

theorem lt_of_indexOf {t : Table} {name : String} {i : Nat} (found : t.indexOf name = .ok i) :
    i < t.columns.length := by
  obtain ⟨within, _⟩ := List.findIdx?_eq_some_iff_getElem.1 (indexOf_eq_ok.1 found)
  exact within

variable {t : Table}

theorem Valid.cell?_eq (valid : t.Valid) {row : Row} (mem : row ∈ t.rows) {name : String} {i : Nat}
    (found : t.indexOf name = .ok i) : row.cell? i = some (row.cell i) :=
  Row.cell?_eq (valid.width row mem ▸ lt_of_indexOf found)

theorem Valid.cells?_eq (valid : t.Valid) {row : Row} (mem : row ∈ t.rows) {α : Type}
    {f : α → String} {as : List α} {positions : List Nat}
    (found : as.mapM (fun a => t.indexOf (f a)) = .ok positions) :
    positions.mapM row.cell? = some (positions.map row.cell) := by
  refine mapM_eq_some_map fun i mem_i => ?_
  obtain ⟨a, _, at_position⟩ := exists_of_mem_mapM found mem_i
  exact valid.cell?_eq mem at_position

end Table

/-! Filters. -/

namespace Operand

variable {columns : List String} {row : Row}

def value? (columns : List String) (row : Row) : Operand → Option Cell
  | .literal l => some l.toCell
  | operand => match operand.columnName? with
    | some name => ((columns.findIdx? (· == name)).map row.cell?).getD (some .null)
    | none => some .null

theorem value?_eq (width : row.length = columns.length) (operand : Operand) :
    operand.value? columns row = some (operand.value columns row) := by
  have lookup (name : String) :
      ((columns.findIdx? (· == name)).map row.cell?).getD (some .null) =
        some (((columns.findIdx? (· == name)).map row.cell).getD .null) := by
    cases found : columns.findIdx? (· == name) with
    | none => rfl
    | some i =>
      obtain ⟨within, _⟩ := List.findIdx?_eq_some_iff_getElem.1 found
      exact Row.cell?_eq (width ▸ within)
  cases operand with
  | column ref => exact lookup ref.text
  | literal l => rfl
  | aggregate call => exact lookup call.label

end Operand

namespace Predicate

variable {columns : List String} {row : Row}

mutual

def truth? (columns : List String) (row : Row) : Predicate → Option Truth
  | .and items => truthOfAll? columns row items
  | .or items => truthOfAny? columns row items
  | .not inner => do
    let t ← truth? columns row inner
    return t.not
  | .compare left op right => do
    let a ← left.value? columns row
    let b ← right.value? columns row
    return (a.compare b).map op.holds
  | .isNull operand negated => do
    let cell ← operand.value? columns row
    return some (cell.isNull != negated)

def truthOfAll? (columns : List String) (row : Row) : List Predicate → Option Truth
  | [] => some (some true)
  | p :: ps => do
    let first ← truth? columns row p
    let rest ← truthOfAll? columns row ps
    return first.and rest

def truthOfAny? (columns : List String) (row : Row) : List Predicate → Option Truth
  | [] => some (some false)
  | p :: ps => do
    let first ← truth? columns row p
    let rest ← truthOfAny? columns row ps
    return first.or rest

end

mutual

theorem truth?_eq (width : row.length = columns.length) :
    ∀ p : Predicate, p.truth? columns row = some (p.truth columns row)
  | .and items => truthOfAll?_eq width items
  | .or items => truthOfAny?_eq width items
  | .not inner => by
    rw [truth?, truth?_eq width inner]
    rfl
  | .compare left op right => by
    rw [truth?, left.value?_eq width, right.value?_eq width]
    rfl
  | .isNull operand negated => by
    rw [truth?, operand.value?_eq width]
    rfl

theorem truthOfAll?_eq (width : row.length = columns.length) :
    ∀ ps : List Predicate, truthOfAll? columns row ps = some (truthOfAll columns row ps)
  | [] => rfl
  | p :: ps => by
    rw [truthOfAll?, truth?_eq width p, truthOfAll?_eq width ps]
    rfl

theorem truthOfAny?_eq (width : row.length = columns.length) :
    ∀ ps : List Predicate, truthOfAny? columns row ps = some (truthOfAny columns row ps)
  | [] => rfl
  | p :: ps => by
    rw [truthOfAny?, truth?_eq width p, truthOfAny?_eq width ps]
    rfl

end

end Predicate

namespace Table

def filter? (t : Table) (p : Predicate) : Reading Table := do
  Reading.ofExcept t.validate
  Reading.ofExcept (t.requireColumns p.columnNames)
  let rows ← Reading.ofOption (select? (fun row => do
    let truth ← p.truth? t.columns row
    return truth == some true) t.rows)
  return ⟨t.columns, rows⟩

theorem filter?_eq (t : Table) (p : Predicate) :
    t.filter? p = Reading.ofExcept (t.filter p) := by
  unfold filter? filter
  refine Reading.ofExcept_bind fun _ valid => Reading.ofExcept_bind fun _ _ => ?_
  have width := (validate_eq_ok_iff.1 valid).width
  have kept : select? (fun row => do
      let truth ← p.truth? t.columns row
      return truth == some true) t.rows =
      some (t.rows.filter fun row => p.truth t.columns row == some true) :=
    select?_eq_filter fun row mem => by rw [p.truth?_eq (width row mem)]; rfl
  rw [Reading.ofOption_bind kept]
  rfl

/-! Projections and sorts. -/

def project? (t : Table) (columns : List Renaming) : Reading Table := do
  Reading.ofExcept t.validate
  let positions ← Reading.ofExcept (columns.mapM fun c => t.indexOf c.source)
  let rows ← Reading.ofOption (t.rows.mapM fun row => positions.mapM row.cell?)
  Reading.ofExcept (ofRows (columns.map Renaming.name) rows)

theorem project?_eq (t : Table) (columns : List Renaming) :
    t.project? columns = Reading.ofExcept (t.project columns) := by
  unfold project? project
  refine Reading.ofExcept_bind fun _ valid => Reading.ofExcept_bind fun positions found => ?_
  have rows : (t.rows.mapM fun row => positions.mapM row.cell?) =
      some (t.rows.map fun row => positions.map row.cell) :=
    mapM_eq_some_map fun row mem => (validate_eq_ok_iff.1 valid).cells?_eq mem found
  rw [Reading.ofOption_bind rows]

end Table

namespace Row

def sortCells? (positions : List (Nat × Direction)) (row : Row) :
    Option (List (Cell × Direction)) :=
  positions.mapM fun (i, direction) => do
    let cell ← row.cell? i
    return (cell, direction)

def orderOfCells : List (Cell × Direction) → List (Cell × Direction) → Ordering
  | (a, direction) :: as, (b, _) :: bs => (Cell.sortOrder direction a b).then (orderOfCells as bs)
  | _, _ => .eq

theorem sortOrder_eq_orderOfCells (positions : List (Nat × Direction)) (a b : Row) :
    sortOrder positions a b = orderOfCells
      (positions.map fun (i, direction) => (a.cell i, direction))
      (positions.map fun (i, direction) => (b.cell i, direction)) := by
  induction positions with
  | nil => rfl
  | cons position positions ih =>
    rw [sortOrder, ih]
    rfl

end Row

namespace Table

/-- All cells that are compared are read before the sort. -/
def sort? (t : Table) (sorter : Sorter) (keys : List SortKey) : Reading (Option Table) := do
  Reading.ofExcept t.validate
  let positions ← Reading.ofExcept
    (keys.mapM fun k => return (← t.indexOf k.column, k.direction))
  let rows ← Reading.ofOption (t.rows.mapM fun row => do
    let cells ← row.sortCells? positions
    return (cells, row))
  return (sorter.sort (fun a b => Row.orderOfCells a.1 b.1) rows).map fun rows =>
    ⟨t.columns, rows.map Prod.snd⟩

theorem sort?_eq (t : Table) (sorter : Sorter) (keys : List SortKey) :
    t.sort? sorter keys = Reading.ofExcept (t.sort sorter keys) := by
  unfold sort? sort
  refine Reading.ofExcept_bind fun _ valid => Reading.ofExcept_bind fun positions found => ?_
  let cells (row : Row) := positions.map fun (i, direction) => (row.cell i, direction)
  have read (row : Row) (mem : row ∈ t.rows) : row.sortCells? positions = some (cells row) :=
    mapM_eq_some_map fun position mem_position => by
      obtain ⟨k, _, at_position⟩ := exists_of_mem_mapM found mem_position
      obtain ⟨i, at_index, same⟩ := bind_eq_ok.1 at_position
      cases pure_eq_ok.1 same
      dsimp only
      rw [(validate_eq_ok_iff.1 valid).cell?_eq mem at_index]
      rfl
  have rows : (t.rows.mapM fun row => do
      let cells ← row.sortCells? positions
      return (cells, row)) = some (t.rows.map fun row => (cells row, row)) :=
    mapM_eq_some_map fun row mem => by rw [read row mem]; rfl
  have compared : (fun a b => Row.orderOfCells (cells a) (cells b)) = Row.sortOrder positions :=
    funext fun a => funext fun b => (Row.sortOrder_eq_orderOfCells positions a b).symm
  have sorted : ((sorter.sort (fun a b => Row.orderOfCells a.1 b.1)
      (t.rows.map fun row => (cells row, row))).map fun rows =>
        (⟨t.columns, rows.map Prod.snd⟩ : Table)) =
      (sorter.sort (Row.sortOrder positions) t.rows).map fun rows => ⟨t.columns, rows⟩ := by
    rw [sorter.sort_map, Option.map_map, compared]
    refine congrArg (Option.map · _) (funext fun rows => ?_)
    rw [Function.comp_apply, List.map_map]
    exact congrArg (Table.mk t.columns) (List.map_id' rows)
  rw [Reading.ofOption_bind rows, sorted]
  rfl

end Table

end TablePlan
