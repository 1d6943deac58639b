import TablePlan.Proofs.Decimal.Scientific
import TablePlan.Proofs.Table.Comparison
import TablePlan.Decimal.Reading

/-!
Integers as doubles. The double of an integer has the value of the nearest multiple of the spacing
that doubles have at its size, in the middle of the even one. Integers of 53 bits are their own
doubles; larger ones keep their order, but neighbours may meet.
-/

namespace TablePlan.Decimal

open Float.Model (UnpackedFloat)

/-- A number rounded to a multiple of a unit, in the middle to the even one. -/
def roundTo (unit n : Nat) : Nat :=
  if 2 * (n % unit) < unit ∨ 2 * (n % unit) = unit ∧ n / unit % 2 = 0 then n / unit * unit
  else (n / unit + 1) * unit

def nearestNat (n : Nat) : Nat :=
  roundTo (2 ^ (n.log2 - 52)) n

/-- The value of the double of an integer. -/
def nearest (n : Int) : Int :=
  n.sign * nearestNat n.natAbs

section Rounding

theorem roundTo_multiple {unit : Nat} (pos : 0 < unit) (k : Nat) :
    roundTo unit (k * unit) = k * unit := by
  rw [roundTo, if_pos (.inl (by simp [pos])), Nat.mul_div_cancel _ pos]

theorem roundTo_bounds (unit n : Nat) :
    n / unit * unit ≤ roundTo unit n ∧ roundTo unit n ≤ (n / unit + 1) * unit := by
  have next : n / unit * unit ≤ (n / unit + 1) * unit := Nat.mul_le_mul_right _ (Nat.le_succ _)
  unfold roundTo
  split_ifs
  · exact ⟨le_rfl, next⟩
  · exact ⟨next, le_rfl⟩

theorem roundTo_mono (unit : Nat) {a b : Nat} (le : a ≤ b) : roundTo unit a ≤ roundTo unit b := by
  obtain less | same := Nat.lt_or_eq_of_le (Nat.div_le_div_right le : a / unit ≤ b / unit)
  · calc roundTo unit a ≤ (a / unit + 1) * unit := (roundTo_bounds unit a).2
      _ ≤ b / unit * unit := Nat.mul_le_mul_right _ less
      _ ≤ roundTo unit b := (roundTo_bounds unit b).1
  · -- Of two rests of one multiple, the greater one is not rounded down alone.
    have rests : a % unit ≤ b % unit := by
      have parts := Nat.div_add_mod a unit
      have parts' := Nat.div_add_mod b unit
      rw [same] at parts
      omega
    by_cases down : 2 * (b % unit) < unit ∨ 2 * (b % unit) = unit ∧ b / unit % 2 = 0
    · have down' : 2 * (a % unit) < unit ∨ 2 * (a % unit) = unit ∧ a / unit % 2 = 0 := by
        rw [same]
        omega
      rw [roundTo, roundTo, if_pos down, if_pos down', same]
    · rw [roundTo.eq_def unit b, if_neg down, ← same]
      exact (roundTo_bounds unit a).2

theorem nearestNat_of_lt {n : Nat} (small : n < 2 ^ 53) : nearestNat n = n := by
  obtain rfl | pos := Nat.eq_zero_or_pos n
  · rfl
  · have log : n.log2 - 52 = 0 :=
      Nat.sub_eq_zero_of_le (Nat.le_of_lt_succ ((Nat.log2_lt pos.ne').2 small))
    rw [nearestNat, log]
    simpa using roundTo_multiple Nat.one_pos n

theorem roundTo_two_pow {k j : Nat} (le : k ≤ j) : roundTo (2 ^ k) (2 ^ j) = 2 ^ j := by
  rw [← Nat.sub_add_cancel le, Nat.pow_add]
  exact roundTo_multiple (Nat.two_pow_pos k) _

theorem nearestNat_bounds {n : Nat} (pos : 0 < n) :
    2 ^ n.log2 ≤ nearestNat n ∧ nearestNat n ≤ 2 ^ (n.log2 + 1) := by
  constructor
  · rw [← roundTo_two_pow (Nat.sub_le n.log2 52)]
    exact roundTo_mono _ (Nat.log2_self_le pos.ne')
  · rw [← roundTo_two_pow ((Nat.sub_le n.log2 52).trans (Nat.le_succ _))]
    exact roundTo_mono _ Nat.lt_log2_self.le

theorem nearestNat_mono {a b : Nat} (le : a ≤ b) : nearestNat a ≤ nearestNat b := by
  obtain rfl | pos := Nat.eq_zero_or_pos a
  · exact Nat.zero_le _
  have pos' := pos.trans_le le
  have logs : a.log2 ≤ b.log2 := (Nat.le_log2 pos'.ne').2 ((Nat.log2_self_le pos.ne').trans le)
  obtain less | same := Nat.lt_or_eq_of_le logs
  · calc nearestNat a ≤ 2 ^ (a.log2 + 1) := (nearestNat_bounds pos).2
      _ ≤ 2 ^ b.log2 := Nat.pow_le_pow_right (by decide) less
      _ ≤ nearestNat b := (nearestNat_bounds pos').1
  · rw [nearestNat, nearestNat, same]
    exact roundTo_mono _ le

theorem nearest_of_nonneg {n : Int} (nonneg : 0 ≤ n) : nearest n = nearestNat n.natAbs := by
  obtain rfl | pos := nonneg.eq_or_lt
  · rfl
  · rw [nearest, Int.sign_eq_one_of_pos pos, Int.one_mul]

theorem nearest_neg (n : Int) : nearest (-n) = -nearest n := by
  rw [nearest, nearest, Int.sign_neg, Int.natAbs_neg, Int.neg_mul]

theorem nearest_mono {a b : Int} (le : a ≤ b) : nearest a ≤ nearest b := by
  have nonneg {n : Int} (le : 0 ≤ n) : 0 ≤ nearest n := by
    rw [nearest_of_nonneg le]
    omega
  have mono {a b : Int} (low : 0 ≤ a) (le : a ≤ b) : nearest a ≤ nearest b := by
    rw [nearest_of_nonneg low, nearest_of_nonneg (low.trans le)]
    exact_mod_cast nearestNat_mono (by omega)
  obtain low | low := Int.le_total 0 a
  · exact mono low le
  obtain high | high := Int.le_total 0 b
  · have below := nonneg (n := -a) (by omega)
    rw [nearest_neg] at below
    have above := nonneg high
    omega
  · have turned := mono (a := -b) (b := -a) (by omega) (by omega)
    rw [nearest_neg, nearest_neg] at turned
    omega

theorem nearest_of_lt {n : Int} (small : n.natAbs < 2 ^ 53) : nearest n = n := by
  rw [nearest, nearestNat_of_lt small, Int.sign_mul_natAbs]

theorem nearest_eq_of_lt {n i : Int} (small : n.natAbs < 2 ^ 53) :
    nearest i = nearest n ↔ i = n := by
  refine ⟨fun same => ?_, congrArg nearest⟩
  rw [nearest_of_lt small] at same
  by_cases inside : i.natAbs < 2 ^ 53
  · rwa [nearest_of_lt inside] at same
  have large : nearest (2 ^ 53) = 2 ^ 53 := by decide +kernel
  obtain up | down : 2 ^ 53 ≤ i ∨ i ≤ -2 ^ 53 := by omega
  · have := nearest_mono up
    omega
  · have := nearest_mono down
    rw [nearest_neg] at this
    omega

end Rounding

section Values

inductive Denotes : UnpackedFloat → ℚ → Prop where
  | zero (sign : UnpackedFloat.Sign) : Denotes (.zero sign) 0
  | positive {m : Nat} {e : Int} (canonical : Canonical m e) :
    Denotes (.finite .positive m e canonical.pos) (m * 2 ^ e)
  | negative {m : Nat} {e : Int} (canonical : Canonical m e) :
    Denotes (.finite .negative m e canonical.pos) (-(m * 2 ^ e))

theorem Denotes.isNaN {x : UnpackedFloat} {v : ℚ} (denotes : Denotes x v) : x.isNaN = false := by
  cases denotes <;> rfl

theorem Canonical.size_pos {m : Nat} {e : Int} (canonical : Canonical m e) :
    (0 : ℚ) < m * 2 ^ e :=
  mul_pos (by exact_mod_cast canonical.pos) (zpow_pos (by norm_num) e)

theorem Canonical.size_lt {m m' : Nat} {e e' : Int} (canonical : Canonical m e)
    (canonical' : Canonical m' e') (less : e < e') : (m * 2 ^ e : ℚ) < m' * 2 ^ e' := by
  have bits : (m : ℚ) < 2 ^ 53 := by exact_mod_cast canonical.bits
  have bits' : (2 ^ 52 : ℚ) ≤ m' := by
    exact_mod_cast canonical'.normal (canonical.least.trans_lt less)
  have next : (2 : ℚ) ^ (e + 1) ≤ 2 ^ e' := zpow_le_zpow_right₀ (by norm_num) less
  calc (m * 2 ^ e : ℚ) < 2 ^ 53 * 2 ^ e := by gcongr
    _ = 2 ^ 52 * 2 ^ (e + 1) := by rw [two_zpow_add]; ring
    _ ≤ m' * 2 ^ e' := by gcongr

theorem Canonical.compare_eq {m m' : Nat} {e e' : Int} (canonical : Canonical m e)
    (canonical' : Canonical m' e') :
    (compare e e').then (compare m m') = compare (m * 2 ^ e : ℚ) (m' * 2 ^ e') := by
  obtain less | rfl | greater := lt_trichotomy e e'
  · rw [compare_lt_iff_lt.2 less, compare_lt_iff_lt.2 (canonical.size_lt canonical' less)]
    rfl
  · have unit : (0 : ℚ) < 2 ^ e := zpow_pos (by norm_num) e
    rw [compare_eq_iff_eq.2 rfl, Ordering.eq_then]
    obtain less | rfl | greater := lt_trichotomy m m'
    · rw [compare_lt_iff_lt.2 less, eq_comm, compare_lt_iff_lt]
      gcongr
    · rw [compare_eq_iff_eq.2 rfl, compare_eq_iff_eq.2 rfl]
    · rw [compare_gt_iff_gt.2 greater, eq_comm, compare_gt_iff_gt]
      gcongr
  · rw [compare_gt_iff_gt.2 greater, compare_gt_iff_gt.2 (canonical'.size_lt canonical greater)]
    rfl

theorem compare_neg {α : Type} [AddCommGroup α] [LinearOrder α] [IsOrderedAddMonoid α] (v w : α) :
    compare (-v) (-w) = (compare v w).swap := by
  obtain less | rfl | greater := lt_trichotomy v w
  · rw [compare_lt_iff_lt.2 less, compare_gt_iff_gt.2 (neg_lt_neg less)]
    rfl
  · rw [compare_eq_iff_eq.2 rfl, compare_eq_iff_eq.2 rfl]
    rfl
  · rw [compare_gt_iff_gt.2 greater, compare_lt_iff_lt.2 (neg_lt_neg greater)]
    rfl

theorem Denotes.compare_eq {x y : UnpackedFloat} {v w : ℚ} (denotes : Denotes x v)
    (denotes' : Denotes y w) : x.compare y = some (compare v w) := by
  cases denotes with
  | zero sign =>
    cases denotes' with
    | zero sign' => rw [compare_eq_iff_eq.2 rfl]; rfl
    | positive canonical' => rw [compare_lt_iff_lt.2 canonical'.size_pos]; rfl
    | negative canonical' =>
      rw [compare_gt_iff_gt.2 (neg_lt_zero.2 canonical'.size_pos)]; rfl
  | positive canonical =>
    have pos := canonical.size_pos
    cases denotes' with
    | zero sign' => rw [compare_gt_iff_gt.2 pos]; rfl
    | positive canonical' => exact congrArg some (canonical.compare_eq canonical')
    | negative canonical' =>
      rw [compare_gt_iff_gt.2 ((neg_lt_zero.2 canonical'.size_pos).trans pos)]; rfl
  | negative canonical =>
    have neg := neg_lt_zero.2 canonical.size_pos
    cases denotes' with
    | zero sign' => rw [compare_lt_iff_lt.2 neg]; rfl
    | positive canonical' =>
      rw [compare_lt_iff_lt.2 (neg.trans canonical'.size_pos)]; rfl
    | negative canonical' =>
      rw [compare_neg, ← canonical.compare_eq canonical']
      rfl

end Values

section Integers

section Parts

variable {q r k : Nat}

theorem parts_div (q r k : Nat) :
    ((2 ^ k * q + r : Nat) : ℚ) / 2 ^ (k : Int) = q + r / 2 ^ k := by
  rw [zpow_natCast]
  push_cast
  field_simp

theorem half_le_rest (up : 2 ^ k ≤ 2 * r) : (1 / 2 : ℚ) ≤ r / 2 ^ k := by
  rw [div_le_div_iff₀ (by norm_num) (by positivity)]
  exact_mod_cast (by omega : 1 * 2 ^ k ≤ r * 2)

theorem rest_lt_one (rest : r < 2 ^ k) : (r : ℚ) / 2 ^ k < 1 := by
  rw [div_lt_one (by positivity)]
  exact_mod_cast rest

theorem contains_down (canonical : Canonical q k)
    (down : 2 * r < 2 ^ k ∨ 2 * r = 2 ^ k ∧ q % 2 = 0) :
    (Interval.around q k).Contains (2 ^ k * q + r : Nat) := by
  have unit : (0 : ℚ) < 2 ^ k := by positivity
  have slack := (Interval.slack_bounds q k).1
  have fraction : (0 : ℚ) ≤ r / 2 ^ k := by positivity
  rw [Interval.contains_around canonical.pos, parts_div]
  obtain less | ⟨half, even⟩ := down
  · have less : (r : ℚ) / 2 ^ k < 1 / 2 := by
      rw [div_lt_div_iff₀ unit (by norm_num)]
      exact_mod_cast (by omega : r * 2 < 1 * 2 ^ k)
    exact ⟨⟨by linarith, by linarith⟩, .inr ⟨by linarith, by linarith⟩⟩
  · have half : (r : ℚ) / 2 ^ k = 1 / 2 := by
      rw [div_eq_div_iff unit.ne' (by norm_num)]
      exact_mod_cast (by omega : r * 2 = 1 * 2 ^ k)
    exact ⟨⟨by linarith, by linarith⟩, .inl even⟩

theorem contains_up (canonical : Canonical (q + 1) k) (low : 2 ^ 52 ≤ q) (rest : r < 2 ^ k)
    (up : ¬ (2 * r < 2 ^ k ∨ 2 * r = 2 ^ k ∧ q % 2 = 0)) :
    (Interval.around (q + 1) k).Contains (2 ^ k * q + r : Nat) := by
  have half := half_le_rest (by omega : 2 ^ k ≤ 2 * r)
  have whole := rest_lt_one rest
  rw [Interval.contains_around canonical.pos, parts_div, Interval.slack, if_neg (by omega)]
  push_cast
  refine ⟨⟨by linarith, by linarith⟩, ?_⟩
  by_cases odd : q % 2 = 1
  · exact .inl (by omega)
  · have more : 1 / 2 < (r : ℚ) / 2 ^ k := by
      rw [div_lt_div_iff₀ (by norm_num) (by positivity)]
      exact_mod_cast (by omega : 1 * 2 ^ k < r * 2)
    exact .inr ⟨by linarith, by linarith⟩

theorem contains_carried (canonical : Canonical (2 ^ 52) (k + 1)) (carried : q + 1 = 2 ^ 53)
    (rest : r < 2 ^ k) (up : 2 ^ k ≤ 2 * r) :
    (Interval.around (2 ^ 52) (k + 1)).Contains (2 ^ k * q + r : Nat) := by
  have half := half_le_rest up
  have whole := rest_lt_one rest
  have top : (q : ℚ) = 2 ^ 53 - 1 := by
    rw [eq_sub_iff_add_eq]
    exact_mod_cast carried
  rw [Interval.contains_around canonical.pos, two_zpow_add, ← div_div, parts_div, top,
    Interval.slack, if_pos ⟨rfl, by omega⟩]
  norm_num
  constructor <;> linarith

theorem exists_canonical_of_parts (low : 2 ^ 52 ≤ q) (high : q < 2 ^ 53) (rest : r < 2 ^ k)
    (few : k < 12) : ∃ m e, ∃ _ : Canonical m e, e ≤ 971 ∧
      (m * 2 ^ e : ℚ) = roundTo (2 ^ k) (2 ^ k * q + r) ∧
      (Interval.around m e).Contains (2 ^ k * q + r : Nat) := by
  have quotient : (2 ^ k * q + r) / 2 ^ k = q := by
    rw [Nat.mul_add_div (Nat.two_pow_pos k), Nat.div_eq_of_lt rest, Nat.add_zero]
  have remainder : (2 ^ k * q + r) % 2 ^ k = r := by
    rw [Nat.mul_add_mod, Nat.mod_eq_of_lt rest]
  rw [roundTo, quotient, remainder]
  split_ifs with down
  · have canonical : Canonical q k := ⟨by omega, high, by omega, fun _ => low⟩
    refine ⟨q, k, canonical, by omega, ?_, contains_down canonical down⟩
    rw [zpow_natCast]
    push_cast
    rfl
  · obtain fits | carried : q + 1 < 2 ^ 53 ∨ q + 1 = 2 ^ 53 := by omega
    · have canonical : Canonical (q + 1) k := ⟨by omega, fits, by omega, fun _ => by omega⟩
      refine ⟨q + 1, k, canonical, by omega, ?_, contains_up canonical low rest down⟩
      rw [zpow_natCast]
      push_cast
      rfl
    · have canonical : Canonical (2 ^ 52) (k + 1) :=
        ⟨by norm_num, by norm_num, by omega, fun _ => le_rfl⟩
      refine ⟨2 ^ 52, k + 1, canonical, by omega, ?_,
        contains_carried canonical carried rest (by omega)⟩
      rw [carried, two_zpow_add, zpow_natCast]
      push_cast
      ring

end Parts

theorem exists_canonical {n : Nat} (pos : 0 < n) (small : n < 2 ^ 64) : ∃ m e, ∃ _ : Canonical m e,
    e ≤ 971 ∧ (m * 2 ^ e : ℚ) = nearestNat n ∧ (Interval.around m e).Contains n := by
  obtain few | many := Nat.lt_or_ge n (2 ^ 53)
  · have log : n.log2 < 53 := (Nat.log2_lt pos.ne').2 few
    have canonical := canonical_ofNat pos few
    have size := size_ofNat pos few
    refine ⟨_, _, canonical, by omega, ?_, ?_⟩
    · rw [size, nearestNat_of_lt few]
    · exact size ▸ Interval.contains_middle canonical.pos
  · have low : 53 ≤ n.log2 := (Nat.le_log2 pos.ne').2 many
    have high : n.log2 < 64 := (Nat.log2_lt pos.ne').2 small
    obtain ⟨k, k_eq⟩ := Nat.exists_eq_add_of_le (Nat.le_of_succ_le low)
    have parts := Nat.div_add_mod n (2 ^ k)
    have large : 2 ^ 52 ≤ n / 2 ^ k := by
      rw [Nat.le_div_iff_mul_le (Nat.two_pow_pos k), ← Nat.pow_add, ← k_eq]
      exact Nat.log2_self_le pos.ne'
    have bits : n / 2 ^ k < 2 ^ 53 := by
      rw [Nat.div_lt_iff_lt_mul (Nat.two_pow_pos k), ← Nat.pow_add,
        show 53 + k = n.log2 + 1 by omega]
      exact Nat.lt_log2_self
    have rounded := exists_canonical_of_parts large bits (Nat.mod_lt n (Nat.two_pow_pos k))
      (by omega)
    rw [parts] at rounded
    rwa [nearestNat, show n.log2 - 52 = k by omega]

theorem Canonical.denotes {m : Nat} {e : Int} (canonical : Canonical m e) (top : e ≤ 971)
    (negative : Bool) : Denotes (finiteFloat negative m e canonical.pos).toModel.unpack
      (if negative then -(m * 2 ^ e) else m * 2 ^ e) := by
  have unpacked : (finiteFloat negative m e canonical.pos).toModel.unpack =
      .finite (signOf negative) m e canonical.pos := canonical.unpack_pack top _
  rw [unpacked]
  cases negative with
  | false => exact .positive canonical
  | true => exact .negative canonical

theorem exists_ofNat_eq {n : Nat} (pos : 0 < n) (small : n < 2 ^ 64) :
    ∃ m e, ∃ canonical : Canonical m e, e ≤ 971 ∧ (m * 2 ^ e : ℚ) = nearestNat n ∧
      Float.ofNat n = finiteFloat false m e canonical.pos := by
  obtain ⟨m, e, canonical, top, value, inside⟩ := exists_canonical pos small
  exact ⟨m, e, canonical, top, value, canonical.ofScientific_eq top (by simpa using inside)⟩

theorem denotes_ofInt {n : Int} (small : n.natAbs < 2 ^ 64) :
    Denotes (Float.ofInt n).toModel.unpack (nearest n) := by
  match n, small with
  | .ofNat 0, _ =>
    exact Denotes.zero .positive
  | .ofNat (n + 1), small =>
    obtain ⟨m, e, canonical, top, value, made⟩ := exists_ofNat_eq n.succ_pos small
    have same : nearest (.ofNat (n + 1)) = nearestNat (n + 1) :=
      nearest_of_nonneg (Int.natCast_nonneg _)
    change Denotes (Float.ofNat (n + 1)).toModel.unpack _
    rw [made, same, Int.cast_natCast, ← value]
    exact canonical.denotes top false
  | .negSucc n, small =>
    obtain ⟨m, e, canonical, top, value, made⟩ := exists_ofNat_eq n.succ_pos small
    have turned : nearest (.negSucc n) = -nearestNat (n + 1) := by
      rw [Int.negSucc_eq, nearest_neg, nearest_of_nonneg (by omega)]
      rfl
    change Denotes (-Float.ofNat (n + 1)).toModel.unpack _
    rw [made, neg_finiteFloat canonical top, turned, Int.cast_neg, Int.cast_natCast, ← value]
    exact canonical.denotes top true

theorem compareFloats_ofInt {a b : Int} (small : a.natAbs < 2 ^ 64) (small' : b.natAbs < 2 ^ 64) :
    compareFloats (Float.ofInt a) (Float.ofInt b) = some (compare (nearest a) (nearest b)) := by
  rw [compareFloats_eq, (denotes_ofInt small).compare_eq (denotes_ofInt small')]
  obtain less | same | greater := lt_trichotomy (nearest a) (nearest b)
  · rw [compare_lt_iff_lt.2 less, compare_lt_iff_lt.2 (Int.cast_lt.2 less)]
  · rw [compare_eq_iff_eq.2 same, compare_eq_iff_eq.2 (congrArg _ same)]
  · rw [compare_gt_iff_gt.2 greater, compare_gt_iff_gt.2 (Int.cast_lt.2 greater)]

theorem toFloat_natural {n : Nat} (small : n < 2 ^ 64) :
    Numeral.toFloat ⟨n, 0⟩ = Float.ofNat n := by
  have few : (Nat.toDigits 10 n).length ≤ 20 :=
    (Nat.length_toDigits_le_iff (by decide) (by decide)).2 (small.trans (by norm_num))
  unfold Numeral.toFloat
  dsimp only
  obtain rfl | pos := Nat.eq_zero_or_pos n
  · rfl
  · rw [if_neg (by omega), if_neg (by omega)]
    rfl

end Integers

end TablePlan.Decimal
