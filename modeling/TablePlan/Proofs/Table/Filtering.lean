import TablePlan.Proofs.Table.Fault
import TablePlan.Proofs.Table.Reading
import TablePlan.Proofs.Truth

/-!
What a filter answers. Every column that the condition reads must exist, whether or not a row or an
evaluation reaches it; behind this check all operands are found, evaluations that stop early agree
with the least and greatest values of connectives, and the rows that are kept are those whose value
is the greatest.
-/

namespace TablePlan

open Success

namespace Operand

variable {columns : List String} {row : Row}

/-- The cell of an operand on a row; none when the row has no cell for it. -/
def lookup? (columns : List String) (row : Row) : Operand → Option Cell
  | .literal l => some l.toCell
  | operand => do
    let name ← operand.columnName?
    let i ← columns.findIdx? (· == name)
    row.cell? i

theorem lookup?_eq (width : row.length = columns.length) {operand : Operand}
    (present : ∀ name ∈ operand.columnName?, name ∈ columns) :
    operand.lookup? columns row = some (operand.value columns row) := by
  have found {name : String} (mem : name ∈ columns) :
      (do let i ← columns.findIdx? (· == name); row.cell? i) =
        some (((columns.findIdx? (· == name)).map row.cell).getD .null) := by
    have there : (columns.findIdx? (· == name)).isSome := by
      rw [List.findIdx?_isSome, List.any_eq_true]
      exact ⟨name, mem, beq_self_eq_true name⟩
    obtain ⟨i, at_i⟩ := Option.isSome_iff_exists.1 there
    obtain ⟨within, _⟩ := List.findIdx?_eq_some_iff_getElem.1 at_i
    rw [at_i]
    exact Row.cell?_eq (width ▸ within)
  cases operand with
  | column ref => exact found (present _ rfl)
  | literal l => rfl
  | aggregate call => exact found (present _ rfl)

end Operand

namespace Predicate

mutual

/-- The place of a condition among the three values: the least of the members of an `AND`, the
greatest of those of an `OR`. None when an operand is not found, whatever the others are. -/
def level? (columns : List String) (row : Row) : Predicate → Option (Fin 3)
  | .and items => do return (← levels? columns row items).foldr min (Truth.level (some true))
  | .or items => do return (← levels? columns row items).foldr max (Truth.level (some false))
  | .not inner => do return (← level? columns row inner).rev
  | .compare left op right => do
    let a ← left.lookup? columns row
    let b ← right.lookup? columns row
    return Truth.level ((a.compare b).map op.holds)
  | .isNull operand negated => do
    let cell ← operand.lookup? columns row
    return Truth.level (some (cell.isNull != negated))

def levels? (columns : List String) (row : Row) : List Predicate → Option (List (Fin 3))
  | [] => some []
  | p :: ps => do
    let first ← level? columns row p
    let rest ← levels? columns row ps
    return first :: rest

end

mutual

/-- The truth of a condition by a scan that leaves an `AND` at its first false member and an `OR` at
its first true one. None when an operand that is reached is not found. -/
def scan? (columns : List String) (row : Row) : Predicate → Option Truth
  | .and items => scanAll? columns row (some true) items
  | .or items => scanAny? columns row (some false) items
  | .not inner => do return (← scan? columns row inner).not
  | .compare left op right => do
    let a ← left.lookup? columns row
    let b ← right.lookup? columns row
    return (a.compare b).map op.holds
  | .isNull operand negated => do
    let cell ← operand.lookup? columns row
    return some (cell.isNull != negated)

def scanAll? (columns : List String) (row : Row) (sofar : Truth) : List Predicate → Option Truth
  | [] => some sofar
  | p :: ps => do
    match ← scan? columns row p with
    | some false => return some false
    | some true => scanAll? columns row sofar ps
    | none => scanAll? columns row none ps

def scanAny? (columns : List String) (row : Row) (sofar : Truth) : List Predicate → Option Truth
  | [] => some sofar
  | p :: ps => do
    match ← scan? columns row p with
    | some true => return some true
    | some false => scanAny? columns row sofar ps
    | none => scanAny? columns row none ps

end

variable {columns : List String} {row : Row}

def Finds (columns : List String) (row : Row) (operands : List Operand) : Prop :=
  ∀ operand ∈ operands, operand.lookup? columns row = some (operand.value columns row)

theorem finds_append {before after : List Operand} :
    Finds columns row (before ++ after) ↔ Finds columns row before ∧ Finds columns row after :=
  List.forall_mem_append

mutual

theorem level?_eq : ∀ p : Predicate, Finds columns row p.operands →
    p.level? columns row = some (p.truth columns row).level
  | .and items, finds => by
    rw [level?, levels?_eq items finds]
    exact congrArg some level_truthOfAll.symm
  | .or items, finds => by
    rw [level?, levels?_eq items finds]
    exact congrArg some level_truthOfAny.symm
  | .not inner, finds => by
    rw [level?, level?_eq inner finds]
    exact congrArg some (Truth.level_not _).symm
  | .compare left op right, finds => by
    rw [level?, finds left (by simp [operands]), finds right (by simp [operands])]
    rfl
  | .isNull operand negated, finds => by
    rw [level?, finds operand (by simp [operands])]
    rfl

theorem levels?_eq : ∀ ps : List Predicate, Finds columns row (operandsOfAll ps) →
    levels? columns row ps = some (ps.map fun p => (p.truth columns row).level)
  | [], _ => rfl
  | p :: ps, finds => by
    rw [operandsOfAll, finds_append] at finds
    rw [levels?, level?_eq _ finds.1, levels?_eq _ finds.2]
    rfl

end

mutual

theorem scan?_eq : ∀ p : Predicate, Finds columns row p.operands →
    p.scan? columns row = some (p.truth columns row)
  | .and items, finds => by
    rw [scan?, scanAll?_eq items finds (by decide), Truth.true_and]
    rfl
  | .or items, finds => by
    rw [scan?, scanAny?_eq items finds (by decide), Truth.false_or]
    rfl
  | .not inner, finds => by
    rw [scan?, scan?_eq inner finds]
    rfl
  | .compare left op right, finds => by
    rw [scan?, finds left (by simp [operands]), finds right (by simp [operands])]
    rfl
  | .isNull operand negated, finds => by
    rw [scan?, finds operand (by simp [operands])]
    rfl

theorem scanAll?_eq : ∀ (ps : List Predicate) {sofar : Truth},
    Finds columns row (operandsOfAll ps) → sofar ≠ some false →
      scanAll? columns row sofar ps = some (sofar.and (truthOfAll columns row ps))
  | [], sofar, _, _ => by rw [scanAll?, truthOfAll, Truth.and_true]
  | p :: ps, sofar, finds, undecided => by
    rw [operandsOfAll, finds_append] at finds
    rw [scanAll?, scan?_eq _ finds.1, truthOfAll, Option.bind_eq_bind, Option.bind_some,
      ← Truth.and_assoc]
    cases p.truth columns row with
    | none =>
      rw [Truth.and_unknown undecided]
      exact scanAll?_eq _ finds.2 nofun
    | some value => cases value with
      | false =>
        rw [Truth.and_false]
        rfl
      | true =>
        rw [Truth.and_true]
        exact scanAll?_eq _ finds.2 undecided

theorem scanAny?_eq : ∀ (ps : List Predicate) {sofar : Truth},
    Finds columns row (operandsOfAll ps) → sofar ≠ some true →
      scanAny? columns row sofar ps = some (sofar.or (truthOfAny columns row ps))
  | [], sofar, _, _ => by rw [scanAny?, truthOfAny, Truth.or_false]
  | p :: ps, sofar, finds, undecided => by
    rw [operandsOfAll, finds_append] at finds
    rw [scanAny?, scan?_eq _ finds.1, truthOfAny, Option.bind_eq_bind, Option.bind_some,
      ← Truth.or_assoc]
    cases p.truth columns row with
    | none =>
      rw [Truth.or_unknown undecided]
      exact scanAny?_eq _ finds.2 nofun
    | some value => cases value with
      | false =>
        rw [Truth.or_false]
        exact scanAny?_eq _ finds.2 undecided
      | true =>
        rw [Truth.or_true]
        rfl

end

end Predicate

namespace Table

variable {t : Table} {p : Predicate} {answer : Except TableError Table}

def Holds (t : Table) (operands : List Operand) : Prop :=
  ∀ operand ∈ operands, ∀ name ∈ operand.columnName?, name ∈ t.columns

theorem holds_iff : t.Holds p.operands ↔ ∀ name ∈ p.columnNames, name ∈ t.columns := by
  simp only [Holds, Predicate.columnNames, List.mem_filterMap, Option.mem_def]
  exact ⟨fun holds name ⟨o, mem, reads⟩ => holds o mem name reads,
    fun holds o mem name reads => holds name ⟨o, mem, reads⟩⟩

theorem Valid.finds (valid : t.Valid) (holds : t.Holds p.operands) {row : Row}
    (mem : row ∈ t.rows) : Predicate.Finds t.columns row p.operands :=
  fun operand mem_operand => Operand.lookup?_eq (valid.width row mem) (holds operand mem_operand)

theorem requireColumns_append_cons {before : List String} {name : String}
    (present : ∀ n ∈ before, n ∈ t.columns) (absent : name ∉ t.columns) (after : List String) :
    t.requireColumns (before ++ name :: after) = .error (.unknownColumn name) := by
  induction before with
  | nil =>
    rw [List.nil_append, requireColumns, indexOf_eq_error_iff.2 ⟨absent, rfl⟩]
    rfl
  | cons n before ih =>
    rw [List.forall_mem_cons] at present
    obtain ⟨i, found⟩ := exists_indexOf_eq_ok.2 present.1
    rw [List.cons_append, requireColumns, found]
    exact ih present.2

/-- What a filter answers: the error of the first check that fails, or the rows whose value is the
greatest. -/
inductive FilterAnswer (t : Table) (p : Predicate) : Except TableError Table → Prop
  | fault {e} (fault : t.Fault e) : FilterAnswer t p (.error e)
  | missing (valid : t.Valid) {before operand after name}
    (operands : p.operands = before ++ operand :: after) (holds : t.Holds before)
    (reads : operand.columnName? = some name) (absent : name ∉ t.columns) :
    FilterAnswer t p (.error (.unknownColumn name))
  | rows (valid : t.Valid) (holds : t.Holds p.operands) :
    FilterAnswer t p (.ok ⟨t.columns, t.rows.filter fun row => p.level? t.columns row == some 2⟩)

theorem FilterAnswer.filter_eq (answers : FilterAnswer t p answer) : t.filter p = answer := by
  cases answers with
  | fault fault =>
    rw [filter, validate_eq_error_iff.2 fault]
    rfl
  | missing valid operands holds reads absent =>
    rename_i before operand after name
    have names : p.columnNames = before.filterMap Operand.columnName? ++
        name :: after.filterMap Operand.columnName? := by
      rw [Predicate.columnNames, operands, List.filterMap_append, List.filterMap_cons_some reads]
    have present : ∀ n ∈ before.filterMap Operand.columnName?, n ∈ t.columns := by
      intro n mem
      obtain ⟨o, mem_o, reads_o⟩ := List.mem_filterMap.1 mem
      exact holds o mem_o n reads_o
    rw [filter, validate_eq_ok_iff.2 valid, names, requireColumns_append_cons present absent]
    rfl
  | rows valid holds =>
    refine filter_eq_ok.2 ⟨valid, holds_iff.1 holds, congrArg _ (List.filter_congr ?_)⟩
    intro row mem
    rw [Predicate.level?_eq _ (valid.finds holds mem), Bool.eq_iff_iff, beq_iff_eq, beq_iff_eq,
      Option.some.injEq, Truth.level_eq_two_iff]

theorem exists_filterAnswer (t : Table) (p : Predicate) : ∃ answer, FilterAnswer t p answer := by
  obtain valid | ⟨e, fault⟩ := t.valid_or_fault
  swap
  · exact ⟨_, .fault fault⟩
  let misses (o : Operand) : Bool := o.columnName?.any fun name => decide (name ∉ t.columns)
  have holds_of {o : Operand} (found : ¬ misses o = true) (n : String) (reads : n ∈ o.columnName?) :
      n ∈ t.columns := by
    by_contra absent
    exact found ((Option.any_eq_true _ _).2 ⟨n, reads, decide_eq_true absent⟩)
  cases first : p.operands.find? misses with
  | none => exact ⟨_, .rows valid fun o mem => holds_of (List.find?_eq_none.1 first o mem)⟩
  | some operand =>
    obtain ⟨missing, before, after, operands, found⟩ := List.find?_eq_some_iff_append.1 first
    obtain ⟨name, reads, absent⟩ := (Option.any_eq_true _ _).1 missing
    exact ⟨_, .missing valid operands (fun o mem => holds_of (by simpa using found o mem)) reads
      (of_decide_eq_true absent)⟩

/-- A filter answers exactly what strict three-valued selection answers behind its checks. On the
rows of a table with the columns that are read no operand falls back to null, and a scan that leaves
connectives early finds the same value. The order of the members of connectives does not matter. -/
theorem filter_answers (t : Table) (p : Predicate) :
    (∀ answer, t.filter p = answer ↔ FilterAnswer t p answer) ∧
    (t.Valid → t.Holds p.operands → ∀ row ∈ t.rows, Predicate.Finds t.columns row p.operands ∧
      ∃ truth, p.scan? t.columns row = some truth ∧
        p.level? t.columns row = some truth.level) ∧
    ∀ q, p.Rearranged q → ∀ t', t.filter p = .ok t' ↔ t.filter q = .ok t' := by
  refine ⟨fun answer => ⟨fun same => ?_, FilterAnswer.filter_eq⟩, ?_, ?_⟩
  · obtain ⟨answer', answers⟩ := exists_filterAnswer t p
    rwa [← same, answers.filter_eq]
  · intro valid holds row mem
    have finds := valid.finds holds mem
    exact ⟨finds, _, Predicate.scan?_eq _ finds, Predicate.level?_eq _ finds⟩
  · intro q rearranged t'
    have names : ∀ name, name ∈ p.columnNames ↔ name ∈ q.columnNames := fun name =>
      (rearranged.operands_perm.filterMap Operand.columnName?).mem_iff
    simp only [filter_eq_ok, names, rearranged.truth_eq]

def readings : Table :=
  ⟨["m.a", "m.b"], [[.int 1, .int 2], [.int 3, .null], [.int 5, .int 4]]⟩

/-- `m.a < m.b OR m.b IS NULL` -/
def behind : List Predicate :=
  [.compare (.column (.qualified "m" "a")) .lt (.column (.qualified "m" "b")),
    .isNull (.column (.qualified "m" "b")) false]

theorem filter_answers_readings : ∃ t', readings.filter (.not (.or behind)) = .ok t' ∧
    readings.filter (.not (.or behind.reverse)) = .ok t' ∧ t'.rows.length = 1 ∧
    ∀ row ∈ readings.rows, ∃ truth,
      (Predicate.not (.or behind)).scan? readings.columns row = some truth := by
  obtain ⟨answers, strict, same⟩ := filter_answers readings (.not (.or behind))
  have valid : readings.Valid := ⟨by decide, by decide⟩
  have holds : readings.Holds (Predicate.not (.or behind)).operands := holds_iff.2 (by decide)
  have kept := (answers _).2 (.rows valid holds)
  refine ⟨_, kept, (same _ (.inNot (.or behind.reverse_perm.symm)) _).1 kept, by decide, ?_⟩
  intro row mem
  obtain ⟨_, truth, scanned, _⟩ := strict valid holds row mem
  exact ⟨truth, scanned⟩

end Table

end TablePlan
