import TablePlan.Proofs.Decimal.Nearest
import TablePlan.Proofs.Table.Sorting

/-!
Where the order of a sort is one. Swapping two cells always swaps their order; cells of one variant
are consistently ordered, while no two variants are so together, since cells that do not compare
tie. Integers and doubles are ordered together as long as no double stands for two of the integers.
-/

namespace TablePlan

open Decimal Float.Model

section Doubles

/-- The place of a double taken apart among all numbers: its side, then its exponent, then its
mantissa. -/
def place : UnpackedFloat → Int × Int × Int
  | .notANumber => (0, 0, 0)
  | .infinity .negative => (-2, 0, 0)
  | .finite .negative m e _ => (-1, -e, -m)
  | .zero _ => (0, 0, 0)
  | .finite .positive m e _ => (1, e, m)
  | .infinity .positive => (2, 0, 0)

def comparePlaces : Int × Int × Int → Int × Int × Int → Ordering :=
  compareLex (compareOn Prod.fst) (compareLex (compareOn fun p => p.2.1) (compareOn fun p => p.2.2))

instance : Std.TransCmp comparePlaces :=
  inferInstanceAs (Std.TransCmp (compareLex _ (compareLex _ _)))

theorem compare_eq_comparePlaces {x y : UnpackedFloat} (number : x.isNaN = false)
    (number' : y.isNaN = false) : x.compare y = some (comparePlaces (place x) (place y)) := by
  have naturals (m n : Nat) : compare (m : Int) (n : Int) = compare m n := by
    obtain less | rfl | greater := Nat.lt_trichotomy m n
    · rw [compare_lt_iff_lt.2 less, compare_lt_iff_lt.2 (Int.ofNat_lt.2 less)]
    · rw [compare_eq_iff_eq.2 rfl, compare_eq_iff_eq.2 rfl]
    · rw [compare_gt_iff_gt.2 greater, compare_gt_iff_gt.2 (Int.ofNat_lt.2 greater)]
  cases x with
  | notANumber => cases number
  | infinity s => cases y with
    | notANumber => cases number'
    | infinity t => cases s <;> cases t <;> rfl
    | zero t => cases s <;> rfl
    | finite t _ _ _ => cases s <;> cases t <;> rfl
  | zero s => cases y with
    | notANumber => cases number'
    | infinity t => cases t <;> rfl
    | zero t => rfl
    | finite t _ _ _ => cases t <;> rfl
  | finite s m e _ => cases y with
    | notANumber => cases number'
    | infinity t => cases s <;> cases t <;> rfl
    | zero t => cases s <;> rfl
    | finite t m' e' _ =>
      cases s <;> cases t
      · change some ((compare e e').then (compare m m')).swap =
          some ((compare (-e) (-e')).then (compare (-m : Int) (-m')))
        rw [compare_neg, compare_neg, naturals, Ordering.swap_then]
      · rfl
      · rfl
      · change _ = some ((compare e e').then (compare (m : Int) m'))
        rw [naturals]
        rfl

/-- The order of two doubles; what is not a number ties. -/
def floatOrder (x y : Float) : Ordering :=
  (compareFloats x y).getD .eq

theorem consistent_numbers : Consistent floatOrder fun x => x.isNaN = false := by
  have places : Consistent comparePlaces fun _ => True := .of_transCmp
  have numbers : Consistent (fun x y : Float => comparePlaces (place x.toModel.unpack)
      (place y.toModel.unpack)) fun x => x.isNaN = false := places.comap fun _ _ => trivial
  refine numbers.congr fun x y number number' => ?_
  rw [floatOrder, compareFloats_eq, compare_eq_comparePlaces number number']
  rfl

theorem compareFloats_isSome {x y : Float} (number : x.isNaN = false) (number' : y.isNaN = false) :
    compareFloats x y = some (floatOrder x y) := by
  rw [floatOrder, compareFloats_eq, compare_eq_comparePlaces number number']
  rfl

theorem compareFloats_of_isNaN {x : Float} (nan : x.isNaN = true) (y : Float) :
    compareFloats x y = none := by
  change x.toModel.unpack.isNaN = true at nan
  rw [compareFloats_eq]
  cases unpacked : x.toModel.unpack with
  | notANumber => rfl
  | _ =>
    rw [unpacked] at nan
    cases nan

theorem natAbs_lt (n : Int64) : n.toInt.natAbs < 2 ^ 64 := by
  have := n.le_toInt
  have := n.toInt_lt
  omega

theorem isNaN_ofInt (n : Int64) : (Float.ofInt n.toInt).isNaN = false :=
  (denotes_ofInt (natAbs_lt n)).isNaN

end Doubles

namespace Cell

inductive Numeric : Cell → Prop where
  | int (n : Int64) : Numeric (.int n)
  | float {x : Float} (number : x.isNaN = false) : Numeric (.float x)

def double : Cell → Float
  | .int n => Float.ofInt n.toInt
  | .float x => x
  | _ => 0

def doubleOrder (a b : Cell) : Ordering :=
  floatOrder a.double b.double

theorem Numeric.isNaN {c : Cell} (numeric : Numeric c) : c.double.isNaN = false := by
  cases numeric with
  | int n => exact isNaN_ofInt n
  | float number => exact number

theorem consistent_doubleOrder : Consistent doubleOrder Numeric :=
  consistent_numbers.comap fun _ => Numeric.isNaN

variable {a b c : Cell}

theorem doubleOrder_int (m n : Int64) :
    doubleOrder (.int m) (.int n) = Ord.compare (nearest m.toInt) (nearest n.toInt) := by
  rw [doubleOrder, double, double, floatOrder, compareFloats_ofInt (natAbs_lt m) (natAbs_lt n)]
  rfl

theorem presentOrder_float (x : Float) (numeric : Numeric a) :
    presentOrder a (.float x) = doubleOrder a (.float x) := by
  cases numeric <;> rfl

theorem float_presentOrder (x : Float) (numeric : Numeric a) :
    presentOrder (.float x) a = doubleOrder (.float x) a := by
  cases numeric <;> rfl

theorem doubleOrder_ne_gt (numeric : Numeric a) (numeric' : Numeric b)
    (le : presentOrder a b ≠ .gt) : doubleOrder a b ≠ .gt := by
  cases numeric' with
  | float => rwa [← presentOrder_float _ numeric]
  | int n =>
    cases numeric with
    | float => exact le
    | int m =>
      rw [doubleOrder_int, compare_le_iff_le]
      exact nearest_mono (compare_le_iff_le.1 le)

theorem presentOrder_of_numeric (numeric : Numeric a) (numeric' : Numeric b) :
    a.compare b = some (presentOrder a b) := by
  cases numeric with
  | int m => cases numeric' with
    | int n => rfl
    | float number => exact compareFloats_isSome (isNaN_ofInt m) number
  | float number => cases numeric' with
    | int n => exact compareFloats_isSome number (isNaN_ofInt n)
    | float number' => exact compareFloats_isSome number number'

theorem ties_of_between {x : Float} {m n : Int64} (number : Numeric (.float x))
    (mx : doubleOrder (.int m) (.float x) ≠ .gt) (xn : doubleOrder (.float x) (.int n) ≠ .gt)
    (nm : doubleOrder (.int n) (.int m) ≠ .gt) :
    (Cell.float x).compare (.int m) = some .eq ∧ (Cell.float x).compare (.int n) = some .eq := by
  have order := consistent_doubleOrder
  have xm := order.trans _ _ _ number (.int n) (.int m) xn nm
  have nx := order.trans _ _ _ (.int n) (.int m) number nm mx
  have tie {k : Int64} (le : doubleOrder (.float x) (.int k) ≠ .gt)
      (ge : doubleOrder (.int k) (.float x) ≠ .gt) :
      (Cell.float x).compare (.int k) = some .eq := by
    rw [presentOrder_of_numeric number (.int k), float_presentOrder _ (.int k)]
    exact congrArg some (eq_of_ne_gt le (order.swap _ _ number (.int k) ▸ ge))
  exact ⟨tie xm mx, tie xn nx⟩

/-- Whether no double of a class stands for two of its integers. -/
def KeepsApart (cells : Cell → Prop) : Prop :=
  ∀ (x : Float) (m n : Int64), cells (.float x) → cells (.int m) → cells (.int n) →
    (Cell.float x).compare (.int m) = some .eq → (Cell.float x).compare (.int n) = some .eq → m = n

theorem consistent_numeric_iff {cells : Cell → Prop} (numeric : ∀ c, cells c → Numeric c) :
    Consistent presentOrder cells ↔ KeepsApart cells := by
  have coarser {a b : Cell} (in_a : cells a) (in_b : cells b) :=
    doubleOrder_ne_gt (numeric a in_a) (numeric b in_b)
  constructor
  · intro consistent x m n in_x in_m in_n tie tie'
    rw [presentOrder_of_numeric (numeric _ in_x) (numeric _ in_m), Option.some_inj] at tie
    rw [presentOrder_of_numeric (numeric _ in_x) (numeric _ in_n), Option.some_inj] at tie'
    have same : presentOrder (.int m) (.int n) = .eq :=
      consistent.congr_left in_x in_m in_n tie ▸ tie'
    exact Int64.toInt_inj.1 (compare_eq_iff_eq.1 same)
  · intro apart
    refine .of_swap_trans (fun a b _ _ => presentOrder_swap a b) ?_
    intro a b c in_a in_b in_c ab bc
    have ac := consistent_doubleOrder.trans a b c (numeric a in_a) (numeric b in_b)
      (numeric c in_c) (coarser in_a in_b ab) (coarser in_b in_c bc)
    cases numeric c in_c with
    | float => rwa [presentOrder_float _ (numeric a in_a)]
    | int n =>
      cases numeric a in_a with
      | float => rwa [float_presentOrder _ (.int n)]
      | int m =>
        cases numeric b in_b with
        | int k =>
          simp only [presentOrder, Cell.compare, Option.getD_some, ne_eq,
            compare_gt_iff_gt, not_lt] at ab bc ⊢
          exact ab.trans bc
        | @float x number =>
          intro wrong
          have back : presentOrder (.int n) (.int m) ≠ .gt := by
            rw [presentOrder_swap, wrong]
            decide
          have ties := ties_of_between (numeric _ in_b) (coarser in_a in_b ab)
            (coarser in_b in_c bc) (coarser in_c in_a back)
          have self : presentOrder (.int n) (.int n) = .eq := compare_eq_iff_eq.2 rfl
          rw [apart x m n in_b in_a in_c ties.1 ties.2, self] at wrong
          cases wrong

/-- The variants of cells that are not null; a double is a number or not. -/
inductive Variant where
  | bool | int | number | notANumber | date | text
  deriving DecidableEq

def variant? : Cell → Option Variant
  | .null => none
  | .bool _ => some .bool
  | .int _ => some .int
  | .float x => some (bif x.isNaN then .notANumber else .number)
  | .date _ => some .date
  | .text _ => some .text

theorem isNull_of_variant {v : Variant} (same : c.variant? = some v) : c.isNull = false := by
  cases c with
  | null => cases same
  | _ => rfl

theorem exists_variant (present : c.isNull = false) : ∃ v, c.variant? = some v := by
  cases c with
  | null => cases present
  | _ => exact ⟨_, rfl⟩

theorem eq_float_of_variant (nan : Bool)
    (same : c.variant? = some (bif nan then .notANumber else .number)) :
    ∃ x, c = .float x ∧ x.isNaN = nan := by
  cases c with
  | float x =>
    refine ⟨x, rfl, ?_⟩
    rw [variant?] at same
    revert same
    cases x.isNaN <;> cases nan <;> simp
  | _ => cases nan <;> cases same

theorem kind?_of_variant {v : Variant} {kind : Kind} (same : c.variant? = some v)
    (kinds : v = .bool ∧ kind = .bool ∨ v = .int ∧ kind = .int ∨ v = .date ∧ kind = .date ∨
      v = .text ∧ kind = .text) : c.kind? = some kind := by
  cases c with
  | null => cases same
  | float x =>
    rw [variant?] at same
    revert same
    cases x.isNaN <;> rintro ⟨⟩ <;> simp at kinds
  | _ =>
    cases same
    simp at kinds
    rw [kinds]
    rfl

theorem consistent_variant (v : Variant) :
    Consistent presentOrder fun c => c.variant? = some v := by
  have of_kind (kind : Kind) (kinds) : Consistent presentOrder fun c => c.variant? = some v :=
    (consistent_sortOrder_iff.1 (consistent_kind kind .asc)).mono fun c same =>
      ⟨fun _ => kind?_of_variant same kinds, isNull_of_variant same⟩
  cases v with
  | bool => exact of_kind .bool (by decide)
  | int => exact of_kind .int (by decide)
  | date => exact of_kind .date (by decide)
  | text => exact of_kind .text (by decide)
  | number =>
    refine (consistent_numeric_iff fun c same => ?_).2 fun x m n _ in_m => ?_
    · obtain ⟨x, rfl, number⟩ := eq_float_of_variant false same
      exact .float number
    · cases in_m
  | notANumber =>
    have ties (a b : Cell) (same : a.variant? = some .notANumber) : presentOrder a b = .eq := by
      obtain ⟨x, rfl, nan⟩ := eq_float_of_variant true same
      cases b <;> simp [presentOrder, Cell.compare, compareFloats_of_isNaN nan]
    refine .of_swap_trans (fun a b _ _ => presentOrder_swap a b) fun a b c in_a _ _ _ _ => ?_
    simp [ties a c in_a]

namespace Variant

def ends : Variant → Cell × Cell
  | bool => (.bool false, .bool true)
  | int => (.int 9007199254740992, .int 9007199254740993)
  | number => (.float 0, .float 1)
  | notANumber => (.float (0 / 0), .float (0 / 0))
  | date => (.date ⟨2024, 1, 1, by decide⟩, .date ⟨2024, 1, 2, by decide⟩)
  | text => (.text "", .text "a")

def sample : Variant → Cell
  | bool => .bool true
  | int => .int 0
  | number => .float 9007199254740992
  | notANumber => .float (0 / 0)
  | date => .date ⟨2024, 1, 1, by decide⟩
  | text => .text ""

theorem variant?_ends (v : Variant) :
    v.ends.1.variant? = some v ∧ v.ends.2.variant? = some v ∧ v.sample.variant? = some v := by
  cases v <;> decide +kernel

theorem sample_ties {v w : Variant} (apart : v ≠ w) (ordered : v ≠ .notANumber)
    (spread : ¬ (v = .number ∧ w = .int)) : presentOrder v.ends.1 v.ends.2 = .lt ∧
      presentOrder v.ends.2 w.sample = .eq ∧ presentOrder w.sample v.ends.1 = .eq := by
  cases v <;> cases w <;> first | contradiction | decide +kernel

end Variant

theorem eq_of_consistent {cells : Cell → Prop} (consistent : Consistent presentOrder cells)
    {v w : Variant} (all : ∀ c, c.variant? = some v ∨ c.variant? = some w → cells c) : v = w := by
  have clash {v w : Variant} (apart : v ≠ w) (ordered : v ≠ .notANumber)
      (spread : ¬ (v = .number ∧ w = .int))
      (all : ∀ c, c.variant? = some v ∨ c.variant? = some w → cells c) : False := by
    obtain ⟨low, high, _⟩ := v.variant?_ends
    obtain ⟨less, tie, tie'⟩ := Variant.sample_ties apart ordered spread
    have in_low := all _ (.inl low)
    have in_high := all _ (.inl high)
    refine consistent.trans _ _ _ in_high (all _ (.inr w.variant?_ends.2.2)) in_low
      (by simp [tie]) (by simp [tie']) ?_
    rw [presentOrder_swap, less]
    rfl
  by_contra apart
  -- One of the two orders of the variants has two cells for the sample between them.
  by_cases turned : v = .notANumber ∨ v = .number ∧ w = .int
  · refine clash (Ne.symm apart) ?_ ?_ fun c => (all c ·.symm)
    · rintro rfl
      simp at turned
      exact apart turned
    · rintro ⟨rfl, rfl⟩
      simp at turned
  · rw [not_or] at turned
    exact clash apart turned.1 turned.2 all

/-- Swapping two cells always swaps their order in a sort. Among all cells of some variants, and
nulls, the order is consistent for one variant only; among integers and doubles of a class it is so
exactly when no double of the class ties with two of its integers. -/
theorem sortOrder_consistent (direction : Direction) :
    (∀ a b, sortOrder direction b a = (sortOrder direction a b).swap) ∧
    (∀ variants : Variant → Prop,
      Consistent (sortOrder direction) (fun c => ∀ v, c.variant? = some v → variants v) ↔
        ∀ v w, variants v → variants w → v = w) ∧
    ∀ cells : Cell → Prop, (∀ c, cells c → c = .null ∨ Numeric c) →
      (Consistent (sortOrder direction) cells ↔ KeepsApart cells) := by
  refine ⟨sortOrder_swap direction, fun variants => ?_, fun cells numeric => ?_⟩
  · rw [consistent_sortOrder_iff]
    constructor
    · intro consistent v w in_v in_w
      refine eq_of_consistent consistent fun c same => ?_
      refine ⟨fun u is_u => ?_, same.elim isNull_of_variant isNull_of_variant⟩
      obtain same | same := same <;> cases same.symm.trans is_u <;> assumption
    · intro single
      by_cases some : ∃ v, variants v
      · obtain ⟨v, in_v⟩ := some
        refine (consistent_variant v).mono fun c ⟨in_c, present⟩ => ?_
        obtain ⟨w, is_w⟩ := exists_variant present
        exact single w v (in_c w is_w) in_v ▸ is_w
      · refine (consistent_variant .bool).mono fun c ⟨in_c, present⟩ => ?_
        obtain ⟨w, is_w⟩ := exists_variant present
        exact absurd ⟨w, in_c w is_w⟩ some
  · rw [consistent_sortOrder_iff, consistent_numeric_iff]
    · simp only [KeepsApart, isNull, and_true]
    · rintro c ⟨in_c, present⟩
      refine (numeric c in_c).resolve_left ?_
      rintro rfl
      cases present

theorem sortOrder_consistent_neighbours : ¬ Consistent (sortOrder .asc) (· ∈
    [.int 9007199254740993, .float 9007199254740992, .int 9007199254740992]) := by
  intro consistent
  have apart := ((sortOrder_consistent .asc).2.2 _ (by
    simp only [List.forall_mem_cons, List.not_mem_nil, false_implies, implies_true, and_true]
    exact ⟨.inr (.int _), .inr (.float (by decide +kernel)), .inr (.int _)⟩)).1 consistent
  have same := apart 9007199254740992 9007199254740993 9007199254740992 (by simp) (by simp)
    (by simp) (by decide +kernel) (by decide +kernel)
  exact absurd same (by decide)

end Cell

end TablePlan
