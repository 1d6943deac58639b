import TablePlan.Proofs.Condition.RoundTrip
import TablePlan.Proofs.Decimal.Nearest
import TablePlan.Proofs.Table.CellOrder

/-!
Integers written in conditions. A condition holds an integer as a double, and a cell that is an
integer is compared with it as one; so the rows that such a condition keeps are those whose nearest
doubles compare as it says, which for integers of 53 bits is what the integers themselves do.
-/

namespace TablePlan

open Condition Condition.TokenParser

namespace Decimal

def integerDigits (n : Int) : Digits where
  whole := Nat.toDigits 10 n.natAbs
  fraction := []
  written := Nat.toDigits_ne_nil
  digits := by
    rw [List.append_nil]
    exact isDigit_of_mem_toDigits

theorem chars_integerDigits (n : Int) : (integerDigits n).chars = Nat.toDigits 10 n.natAbs :=
  List.append_nil _

theorem toList_toString_int (n : Int) : (toString n).toList =
    (if decide (n < 0) then ['-'] else []) ++ (integerDigits n).chars := by
  rw [chars_integerDigits]
  match n with
  | .ofNat n => exact toList_toString n
  | .negSucc n =>
    have written : toString (Int.negSucc n) = "-" ++ toString (n + 1) := rfl
    rw [written, String.toList_append, toList_toString, decide_eq_true (Int.negSucc_lt_zero n)]
    rfl

theorem floatOfText?_integerDigits {n : Int} (small : n.natAbs < 2 ^ 64) :
    floatOfText? (String.ofList (integerDigits n).chars) = some (Float.ofNat n.natAbs) := by
  have significand : (integerDigits n).significand = n.natAbs := by
    rw [Digits.significand, integerDigits, List.append_nil, Nat.ofDigitChars_ten_toDigits]
  rw [floatOfText?, String.toList_ofList, Digits.ofChars?_chars, Option.map_some, significand]
  exact congrArg some (toFloat_natural small)

theorem ofInt_eq (n : Int) :
    (if decide (n < 0) then -Float.ofNat n.natAbs else Float.ofNat n.natAbs) = Float.ofInt n := by
  match n with
  | .ofNat n => rfl
  | .negSucc n =>
    rw [decide_eq_true (Int.negSucc_lt_zero n)]
    rfl

end Decimal

namespace Predicate

def comparesWith (ref : ColumnRef) (op : Comparison) (n : Int) : Predicate :=
  .compare (.column ref) op (.literal (.number (Float.ofInt n)))

def integerText (ref : ColumnRef) (op : Comparison) (n : Int) : String :=
  ref.text ++ " " ++ op.symbol ++ " " ++ toString n

variable {ref : ColumnRef} (op : Comparison) {n : Int}

section Reading

open Decimal

def integerTokens (n : Int) : List Token :=
  (if decide (n < 0) then [.symbol "-"] else []) ++
    [.number (String.ofList (integerDigits n).chars) false]

def integerExpr (n : Int) : Expr :=
  if decide (n < 0) then
    .signed true (.value (.number (String.ofList (integerDigits n).chars) false))
  else .value (.number (String.ofList (integerDigits n).chars) false)

theorem scans_integerText (expressible : ref.Expressible) (n : Int) :
    Token.Scans (integerText ref op n).toList (ref.tokens ++ op.token :: integerTokens n) := by
  have ends : EndsOperand [] := by simp [EndsOperand]
  have number := Literal.scans_signed (decide (n < 0)) (integerDigits n) ends Token.scans_nil
  rw [List.append_nil, List.append_nil, ← toList_toString_int] at number
  have both := ColumnRef.scans expressible endsOperand_blank (op.scans number).blank
  simpa [integerText, integerTokens] using both

theorem expression_integerText (expressible : ref.Expressible) (n : Int) :
    Condition.expression (integerText ref op n) =
      .ok (.binary ref.expr (.compare op) (integerExpr n)) := by
  have noBracket : Token.symbol "[" ∉ integerTokens n ++ [] := by
    rw [integerTokens]
    split <;> simp
  have opens : Opens (integerTokens n ++ []) := by
    rw [integerTokens]
    split <;> simp [Opens, Token.keyword?]
  have number : operand (TokenParser.expression 48) (integerTokens n ++ []) =
      .ok (integerExpr n, []) :=
    Literal.operand_signed (by split <;> omega) List.not_mem_nil (by simp [Follows])
  have right : TokenParser.expression 49 20 (integerTokens n ++ []) = .ok (integerExpr n, []) :=
    (expression_of_operand number).trans (continued_of_le (Nat.zero_le 20))
  obtain ⟨bound, _, read⟩ := exists_bound_compare op (Nat.zero_le 15) noBracket
    (ColumnRef.operand_tokens expressible _) opens right
  have whole : TokenParser.expression depthLimit 0 (ref.tokens ++ op.token :: integerTokens n) =
      .ok (.binary ref.expr (.compare op) (integerExpr n), []) := by
    rw [List.append_nil] at read
    exact read.trans (continued_of_le le_rfl)
  have parsed : Expr.parse (integerText ref op n) =
      .ok (.binary ref.expr (.compare op) (integerExpr n)) := by
    rw [Expr.parse, (scans_integerText op expressible n).scan?]
    dsimp only
    rw [whole]
  rw [Condition.expression, parsed]

theorem read_integerText (expressible : ref.Expressible) (small : n.natAbs < 2 ^ 64) :
    Predicate.read (integerText ref op n) = .ok (comparesWith ref op n) := by
  rw [Predicate.read, expression_integerText op expressible]
  change (Expr.binary _ (.compare op) _).predicate _ = _
  rw [Expr.predicate, ref.operand_expr, integerExpr,
    Literal.meaning_signed (floatOfText?_integerDigits small), ofInt_eq]
  rfl

end Reading

end Predicate

open Decimal

theorem compare_nearest (i n : Int) : compare (nearest i) (nearest n) =
    if nearest i = nearest n then .eq else compare i n := by
  obtain less | rfl | greater := lt_trichotomy i n
  · have le := nearest_mono less.le
    split_ifs with same
    · rw [same, compare_eq_iff_eq.2 rfl]
    · rw [compare_lt_iff_lt.2 less, compare_lt_iff_lt.2 (lt_of_le_of_ne le same)]
  · rw [if_pos rfl, compare_eq_iff_eq.2 rfl]
  · have le := nearest_mono greater.le
    split_ifs with same
    · rw [same, compare_eq_iff_eq.2 rfl]
    · rw [compare_gt_iff_gt.2 greater, compare_gt_iff_gt.2 (lt_of_le_of_ne le (Ne.symm same))]

namespace Cell

def meetsExactly (op : Comparison) (n : Int) : Cell → Bool
  | .int i => op.holds (Ord.compare i.toInt n)
  | _ => false

/-- What it asks of a cell when integers with the same nearest double are equal. -/
def meets (op : Comparison) (n : Int) : Cell → Bool
  | .int i => op.holds (if nearest i.toInt = nearest n then .eq else Ord.compare i.toInt n)
  | _ => false

theorem meets_eq_meetsExactly (op : Comparison) {n : Int} (small : n.natAbs < 2 ^ 53) :
    meets op n = meetsExactly op n := by
  funext c
  cases c with
  | int i =>
    simp only [meets, meetsExactly, nearest_eq_of_lt small]
    split_ifs with same
    · rw [same, compare_eq_iff_eq.2 rfl]
    · rfl
  | _ => rfl

end Cell

namespace Table

variable {t : Table} {ref : ColumnRef}

theorem truth_comparesWith {columns : List String} {row : Row} (op : Comparison) (n : Int64)
    (integer : row.named columns ref.text = .null ∨ ∃ i, row.named columns ref.text = .int i) :
    ((Predicate.comparesWith ref op n.toInt).truth columns row == some true) =
      (row.named columns ref.text).meets op n.toInt := by
  have value : Operand.value columns row (.column ref) = row.named columns ref.text := rfl
  have holds_beq (b : Bool) : (some b == some true) = b := by cases b <;> rfl
  rw [Predicate.comparesWith, Predicate.truth, value]
  obtain null | ⟨i, int⟩ := integer
  · rw [null]
    rfl
  · have order : (Cell.int i).compare (.float (Float.ofInt n.toInt)) =
        some (if nearest i.toInt = nearest n.toInt then .eq else compare i.toInt n.toInt) := by
      rw [← compare_nearest, ← compareFloats_ofInt (natAbs_lt i) (natAbs_lt n)]
      rfl
    rw [int]
    change (((Cell.int i).compare (.float (Float.ofInt n.toInt))).map op.holds == some true) = _
    rw [order, Cell.meets]
    exact holds_beq _

theorem filter_comparesWith (valid : t.Valid) (present : ref.text ∈ t.columns)
    (integers : ∀ row ∈ t.rows, row.named t.columns ref.text = .null ∨
      ∃ i, row.named t.columns ref.text = .int i) (op : Comparison) (n : Int64) :
    t.filter (.comparesWith ref op n.toInt) = .ok ⟨t.columns,
      t.rows.filter fun row => (row.named t.columns ref.text).meets op n.toInt⟩ := by
  have names : ∀ name ∈ (Predicate.comparesWith ref op n.toInt).columnNames, name ∈ t.columns := by
    simpa [Predicate.comparesWith, Predicate.columnNames, Predicate.operands,
      Operand.columnName?] using present
  refine filter_eq_ok.2 ⟨valid, names, ?_⟩
  congr 1
  exact (List.filter_congr fun row mem => truth_comparesWith op n (integers row mem)).symm

/-- A condition that compares a column of integers and nulls with a 64-bit integer keeps the rows
whose integer compares so, where integers with the same nearest double are equal. Below `2 ^ 53`
that is exact. -/
theorem filter_integer (expressible : ref.Expressible) (op : Comparison) (n : Int64) :
    ∃ p, Predicate.read (Predicate.integerText ref op n.toInt) = .ok p ∧
      ∀ t : Table, t.Valid → ref.text ∈ t.columns →
        (∀ row ∈ t.rows, row.named t.columns ref.text = .null ∨
          ∃ i, row.named t.columns ref.text = .int i) →
        t.filter p = .ok ⟨t.columns,
          t.rows.filter fun row => (row.named t.columns ref.text).meets op n.toInt⟩ ∧
        (n.toInt.natAbs < 2 ^ 53 → t.filter p = .ok ⟨t.columns,
          t.rows.filter fun row => (row.named t.columns ref.text).meetsExactly op n.toInt⟩) := by
  refine ⟨_, Predicate.read_integerText op expressible (natAbs_lt n), ?_⟩
  intro t valid present integers
  have kept := filter_comparesWith valid present integers op n
  exact ⟨kept, fun small => Cell.meets_eq_meetsExactly op small ▸ kept⟩

/-- Neighbours of which the second one has no double of its own, and a null. -/
def neighbours : Table :=
  ⟨["a.x"], [[.int 9007199254740992], [.int 9007199254740993], [.null], [.int 7]]⟩

theorem valid_neighbours : neighbours.Valid :=
  ⟨by decide, by decide⟩

theorem neighbours_integers : ∀ row ∈ neighbours.rows,
    row.named neighbours.columns "a.x" = .null ∨
      ∃ i, row.named neighbours.columns "a.x" = .int i := by
  simp only [neighbours, List.forall_mem_cons]
  exact ⟨.inr ⟨_, rfl⟩, .inr ⟨_, rfl⟩, .inl rfl, .inr ⟨_, rfl⟩, nofun⟩

theorem neighbours_expressible : (ColumnRef.qualified "a" "x").Expressible := by
  decide +kernel

theorem filter_integer_neighbours : ∃ p, Predicate.read "a.x >= -9007199254740993" = .ok p ∧
    neighbours.filter p = .ok ⟨["a.x"],
      [[.int 9007199254740992], [.int 9007199254740993], [.int 7]]⟩ := by
  obtain ⟨p, read, kept⟩ := filter_integer neighbours_expressible .gtEq (-9007199254740993)
  refine ⟨p, read, ?_⟩
  exact (kept neighbours valid_neighbours (by decide) neighbours_integers).1

/-- The neighbour of the integer in the condition is kept as well. -/
theorem filter_merges_neighbours : ∃ p t', Predicate.read "a.x == 9007199254740993" = .ok p ∧
    neighbours.filter p = .ok t' ∧ [.int 9007199254740992] ∈ t'.rows ∧
    t'.rows ≠ neighbours.rows.filter fun row =>
      (row.named neighbours.columns "a.x").meetsExactly .eq 9007199254740993 := by
  have read := Predicate.read_integerText .eq neighbours_expressible
    (by decide : (9007199254740993 : Int).natAbs < 2 ^ 64)
  have present : (ColumnRef.qualified "a" "x").text ∈ neighbours.columns := by decide
  have kept := filter_comparesWith valid_neighbours present neighbours_integers .eq
    9007199254740993
  refine ⟨_, _, read, kept, ?_, fun same => ?_⟩
  · exact List.mem_filter.2 ⟨List.mem_cons_self, by decide +kernel⟩
  · have lengths := congrArg List.length same
    revert lengths
    decide +kernel

end Table

end TablePlan
