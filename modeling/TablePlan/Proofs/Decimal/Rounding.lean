import TablePlan.Decimal.Shortest
import Mathlib.Algebra.Order.Field.Power
import Mathlib.Algebra.Order.Field.Rat
import Mathlib.Tactic.FieldSimp
import Mathlib.Tactic.Linarith
import Mathlib.Tactic.NormNum
import Mathlib.Tactic.Positivity
import Mathlib.Tactic.Ring

/-!
Rounding to doubles. A real is given by its integer part in some unit and what is told of the rest;
if it lies in the interval of a double, rounding it gives the mantissa and the exponent of this
double. Products and quotients of finite doubles are rounded from exact values.
-/

namespace TablePlan.Decimal

open Float.Model Float.Model.UnpackedFloat

/-- A mantissa and an exponent as finite doubles have them: the mantissa has all of its bits unless
the exponent is the least one. -/
structure Canonical (mantissa : Nat) (exponent : Int) : Prop where
  pos : 0 < mantissa
  bits : mantissa < 2 ^ 53
  least : -1074 ≤ exponent
  normal : -1074 < exponent → 2 ^ 52 ≤ mantissa

namespace Interval

def Contains (i : Interval) (v : ℚ) : Prop :=
  if i.closed then (i.low : ℚ) * 2 ^ i.exponent ≤ v ∧ v ≤ i.high * 2 ^ i.exponent
  else (i.low : ℚ) * 2 ^ i.exponent < v ∧ v < i.high * 2 ^ i.exponent

end Interval

section Bits

/-- What an accuracy tells of the part of a real beyond its integer part. -/
def Tells : Accuracy → ℚ → Prop
  | .exact, d => d = 0
  | .inexact .lt, d => 0 < d ∧ d < 1 / 2
  | .inexact .eq, d => d = 1 / 2
  | .inexact .gt, d => 1 / 2 < d ∧ d < 1

theorem Tells.bounds {a : Accuracy} {d : ℚ} (tells : Tells a d) : 0 ≤ d ∧ d < 1 := by
  match a, tells with
  | .exact, tells => rw [show d = 0 from tells]; norm_num
  | .inexact .lt, tells => exact ⟨tells.1.le, tells.2.trans (by norm_num)⟩
  | .inexact .eq, tells => rw [show d = 1 / 2 from tells]; norm_num
  | .inexact .gt, tells => exact ⟨(tells.1.trans' (by norm_num)).le, tells.2⟩

/-- Whether a mantissa with its two residual bits stands for a real. -/
def Shows (em : ExtendedMantissa) (q : ℚ) : Prop :=
  Tells em.accuracy (q - em.mantissa)

theorem shows_ofMantissaAndAccuracy {n : Nat} {a : Accuracy} {q : ℚ} (tells : Tells a (q - n)) :
    Shows (.ofMantissaAndAccuracy n a) q := by
  match a, tells with
  | .exact, tells => exact tells
  | .inexact .lt, tells => exact tells
  | .inexact .eq, tells => exact tells
  | .inexact .gt, tells => exact tells

theorem Shows.shiftRightOne {em : ExtendedMantissa} {q : ℚ} (shown : Shows em q) :
    Shows em.shiftRightOne (q / 2) := by
  obtain ⟨n, round, sticky⟩ := em
  have halves : ((2 * (n / 2) + n % 2 : Nat) : ℚ) = n := congrArg _ (Nat.div_add_mod n 2)
  have last : (n % 2 != 0) = true ∧ ((n % 2 : Nat) : ℚ) = 1 ∨
      (n % 2 != 0) = false ∧ ((n % 2 : Nat) : ℚ) = 0 := by
    obtain even | odd := Nat.mod_two_eq_zero_or_one n
    · exact .inr (by simp [even])
    · exact .inl (by simp [odd])
  push_cast at halves
  unfold Shows ExtendedMantissa.shiftRightOne at *
  dsimp only at *
  obtain ⟨bit, value⟩ | ⟨bit, value⟩ := last <;> rw [value] at halves <;> rw [bit] <;>
    cases round <;> cases sticky <;> dsimp only [ExtendedMantissa.accuracy, Tells, Bool.or] at * <;>
    first | linarith | exact ⟨by linarith, by linarith⟩

theorem Shows.shiftRight {em : ExtendedMantissa} {q : ℚ} (shown : Shows em q) (k : Nat) :
    Shows (em >>> k) (q / 2 ^ k) := by
  change Shows (k.repeat ExtendedMantissa.shiftRightOne em) (q / 2 ^ k)
  induction k with
  | zero => simpa [Nat.repeat] using shown
  | succ k ih =>
    rw [Nat.repeat, pow_succ, div_mul_eq_div_div]
    exact ih.shiftRightOne

theorem tells_accuracyOfFraction {r d : Nat} (less : r < d) :
    Tells (accuracyOfFraction r d) ((r : ℚ) / d) := by
  have pos : (0 : ℚ) < d := by exact_mod_cast Nat.zero_lt_of_lt less
  unfold accuracyOfFraction
  split_ifs with none
  · rw [none, Nat.cast_zero, zero_div]
    rfl
  · have some : (0 : ℚ) < r := by exact_mod_cast Nat.pos_of_ne_zero none
    have whole : (r : ℚ) / d < 1 := (div_lt_one pos).2 (by exact_mod_cast less)
    obtain low | middle | high := Nat.lt_trichotomy (2 * r) d
    · rw [Nat.compare_eq_lt.2 low]
      have low : (2 * r : ℚ) < d := by exact_mod_cast low
      exact ⟨div_pos some pos, by rw [div_lt_div_iff₀ pos (by norm_num)]; linarith only [low]⟩
    · rw [Nat.compare_eq_eq.2 middle]
      have middle : (2 * r : ℚ) = d := by exact_mod_cast middle
      change (r : ℚ) / d = 1 / 2
      rw [div_eq_div_iff pos.ne' (by norm_num)]
      linarith only [middle]
    · rw [Nat.compare_eq_gt.2 high]
      have high : (d : ℚ) < 2 * r := by exact_mod_cast high
      exact ⟨by rw [div_lt_div_iff₀ (by norm_num) pos]; linarith only [high], whole⟩

theorem Shows.roundedMantissa {em : ExtendedMantissa} {q : ℚ} (shown : Shows em q) {n : Nat}
    (near : (n : ℚ) - 1 / 2 ≤ q ∧ q ≤ n + 1 / 2)
    (inside : n % 2 = 0 ∨ (n : ℚ) - 1 / 2 < q ∧ q < n + 1 / 2) : em.roundedMantissa = n := by
  unfold Shows at shown
  unfold ExtendedMantissa.roundedMantissa
  have below : em.mantissa ≤ n := by
    by_contra above
    have above : ((n + 1 : Nat) : ℚ) ≤ em.mantissa := by exact_mod_cast Nat.lt_of_not_le above
    push_cast at above
    linarith [shown.bounds.1]
  have above : n ≤ em.mantissa + 1 := by
    by_contra below
    have below : ((em.mantissa + 2 : Nat) : ℚ) ≤ n := by exact_mod_cast Nat.lt_of_not_le below
    push_cast at below
    linarith [shown.bounds.2]
  obtain same | next : n = em.mantissa ∨ n = em.mantissa + 1 := by omega
  · subst same
    match accuracy : em.accuracy, shown with
    | .exact, _ => rfl
    | .inexact .lt, _ => rfl
    | .inexact .eq, shown =>
      have half : q = em.mantissa + 1 / 2 := by linarith [show q - em.mantissa = 1 / 2 from shown]
      have even := inside.resolve_right fun strict => by linarith [strict.2]
      rw [Accuracy.roundToNearestEven, even, Nat.add_zero]
    | .inexact .gt, shown => linarith [shown.1]
  · subst next
    push_cast at near inside
    match accuracy : em.accuracy, shown with
    | .exact, shown => linarith [show q - em.mantissa = 0 from shown]
    | .inexact .lt, shown => linarith [shown.2]
    | .inexact .eq, shown =>
      have half : q = em.mantissa + 1 / 2 := by linarith [show q - em.mantissa = 1 / 2 from shown]
      have even := inside.resolve_right fun strict => by linarith [strict.1]
      rw [Accuracy.roundToNearestEven]
      omega
    | .inexact .gt, _ => rfl

end Bits

namespace Interval

/-- What a decimal may lose below a mantissa: next to a power of two the doubles lie denser. -/
def slack (mantissa : Nat) (exponent : Int) : ℚ :=
  if mantissa = 2 ^ 52 ∧ -1074 < exponent then 1 / 4 else 1 / 2

theorem slack_bounds (m : Nat) (e : Int) : 0 < slack m e ∧ slack m e ≤ 1 / 2 := by
  unfold slack
  split_ifs <;> norm_num

theorem contains_around {m : Nat} {e : Int} (pos : 0 < m) {v : ℚ} :
    (Interval.around m e).Contains v ↔
      (m - slack m e ≤ v / 2 ^ e ∧ v / 2 ^ e ≤ m + 1 / 2) ∧
      (m % 2 = 0 ∨ m - slack m e < v / 2 ^ e ∧ v / 2 ^ e < m + 1 / 2) := by
  have unit : (0 : ℚ) < 2 ^ e := zpow_pos (by norm_num) e
  have quarter : (2 : ℚ) ^ (e - 2) = 2 ^ e / 4 := by
    rw [zpow_sub₀ (by norm_num)]
    norm_num
  have low : ((4 * m - (if m = Nat.pow 2 52 ∧ -1074 < e then 1 else 2) : Nat) : ℚ) =
      4 * (m - slack m e) := by
    unfold slack
    rw [show Nat.pow 2 52 = 2 ^ 52 from rfl]
    split_ifs
    · rw [Nat.cast_sub (by omega)]
      push_cast
      ring
    · rw [Nat.cast_sub (by omega)]
      push_cast
      ring
  have below : 4 * (m - slack m e) * (2 ^ e / 4) = (m - slack m e) * 2 ^ e := by ring
  have above : (4 * (m : ℚ) + 2) * (2 ^ e / 4) = (m + 1 / 2) * 2 ^ e := by ring
  unfold Contains around
  dsimp only
  rw [low, quarter]
  push_cast
  rw [below, above, le_div_iff₀ unit, div_le_iff₀ unit, lt_div_iff₀ unit, div_lt_iff₀ unit]
  by_cases even : m % 2 = 0
  · simp [even]
  · simp only [even, decide_false, Bool.false_eq_true, if_false, false_or]
    exact ⟨fun strict => ⟨⟨strict.1.le, strict.2.le⟩, strict⟩, And.right⟩

theorem bounds_of_contains {m : Nat} {e : Int} (pos : 0 < m) {v : ℚ}
    (inside : (Interval.around m e).Contains v) :
    (m - 1 / 2) * 2 ^ e ≤ v ∧ v ≤ (m + 1 / 2) * 2 ^ e := by
  have unit : (0 : ℚ) < 2 ^ e := zpow_pos (by norm_num) e
  obtain ⟨⟨low, high⟩, _⟩ := (contains_around pos).1 inside
  have slack := (slack_bounds m e).2
  exact ⟨(le_div_iff₀ unit).1 (by linarith), (div_le_iff₀ unit).1 high⟩

end Interval

section Round

theorem targetExponent_eq (t : Int) :
    Format.binary64.targetExponent t = max (t - 53) (-1074) :=
  rfl

theorem targetExponent_mono {t u : Int} (le : t ≤ u) :
    Format.binary64.targetExponent t ≤ Format.binary64.targetExponent u := by
  rw [Decimal.targetExponent_eq, Decimal.targetExponent_eq]
  omega

theorem shiftToTargetExponent_eq {n : Nat} {x : Int} {a : Accuracy} {target : Int}
    (total : Format.binary64.targetExponent (totalExponent n x) = target) (fine : x ≤ target) :
    shiftToTargetExponent Format.binary64 n x a =
      (ExtendedMantissa.ofMantissaAndAccuracy n a >>> (target - x).toNat, target) := by
  unfold shiftToTargetExponent shiftToExponent
  dsimp only
  rw [total, Int.toNat_of_nonneg (by omega), add_sub_cancel]

variable {n : Nat} {x : Int} {v : ℚ}

theorem totalExponent_bounds (floor : (n : ℚ) ≤ v / 2 ^ x) (rest : v / 2 ^ x < n + 1) :
    v < 2 ^ totalExponent n x ∧ (n ≠ 0 → (2 : ℚ) ^ (totalExponent n x - 1) ≤ v) := by
  have unit : (0 : ℚ) < 2 ^ x := zpow_pos (by norm_num) x
  rw [le_div_iff₀ unit] at floor
  rw [div_lt_iff₀ unit] at rest
  unfold totalExponent
  rw [zpow_add₀ (by norm_num)]
  constructor
  · have bits : ((n + 1 : Nat) : ℚ) ≤ (2 ^ (n.log2 + 1) : Nat) := by
      exact_mod_cast Nat.lt_log2_self
    push_cast at bits
    calc v < (n + 1) * 2 ^ x := rest
      _ ≤ 2 ^ (n.log2 + 1) * 2 ^ x := mul_le_mul_of_nonneg_right bits unit.le
  · intro some
    have bits : ((2 ^ n.log2 : Nat) : ℚ) ≤ n := by exact_mod_cast Nat.log2_self_le some
    push_cast at bits
    rw [show ((n.log2 : Int) + 1 + x - 1) = n.log2 + x by ring, zpow_add₀ (by norm_num)]
    exact (mul_le_mul_of_nonneg_right bits unit.le).trans floor

theorem lt_of_two_zpow_lt {a b : Int} (less : (2 : ℚ) ^ a < 2 ^ b) : a < b :=
  (zpow_lt_zpow_iff_right₀ (by norm_num)).1 less

theorem two_zpow_add (a b : Int) : (2 : ℚ) ^ (a + b) = 2 ^ a * 2 ^ b :=
  zpow_add₀ (by norm_num) a b

variable {m : Nat} {e : Int} (canonical : Canonical m e)

include canonical

theorem Canonical.targetExponent_eq :
    Format.binary64.targetExponent (totalExponent m e) = e := by
  have log : m.log2 < 53 := (Nat.log2_lt canonical.pos.ne').2 canonical.bits
  have least := canonical.least
  rw [Decimal.targetExponent_eq, totalExponent]
  by_cases lowest : e = -1074
  · omega
  · have full := (Nat.le_log2 canonical.pos.ne').2 (canonical.normal (by omega))
    omega

section Target

variable (floor : (n : ℚ) ≤ v / 2 ^ x) (rest : v / 2 ^ x < n + 1)
  (inside : (Interval.around m e).Contains v)

include floor rest inside

theorem Canonical.totalExponent_le (some : n ≠ 0) : totalExponent n x ≤ 53 + e := by
  have unit : (0 : ℚ) < 2 ^ e := zpow_pos (by norm_num) e
  obtain ⟨_, high⟩ := Interval.bounds_of_contains canonical.pos inside
  have bits : (m : ℚ) + 1 ≤ 2 ^ 53 := by exact_mod_cast canonical.bits
  have less : (2 : ℚ) ^ (totalExponent n x - 1) < 2 ^ (53 + e) := by
    rw [two_zpow_add]
    calc (2 : ℚ) ^ (totalExponent n x - 1) ≤ v := (totalExponent_bounds floor rest).2 some
      _ ≤ (m + 1 / 2) * 2 ^ e := high
      _ < 2 ^ 53 * 2 ^ e := mul_lt_mul_of_pos_right (by linarith) unit
  have := lt_of_two_zpow_lt less
  omega

theorem Canonical.lt_totalExponent (normal : -1074 < e) : 51 + e < totalExponent n x := by
  have unit : (0 : ℚ) < 2 ^ e := zpow_pos (by norm_num) e
  obtain ⟨low, _⟩ := Interval.bounds_of_contains canonical.pos inside
  have bits : (4503599627370496 : ℚ) ≤ m := by exact_mod_cast canonical.normal normal
  refine lt_of_two_zpow_lt (lt_of_le_of_lt ?_ (totalExponent_bounds floor rest).1)
  rw [two_zpow_add]
  refine le_trans (mul_le_mul_of_nonneg_right ?_ unit.le) low
  norm_num
  linarith

omit floor rest in
theorem Canonical.least_of_lt (normal : -1074 < e) (small : v < 2 ^ (52 + e)) : m = 2 ^ 52 := by
  have unit : (0 : ℚ) < 2 ^ e := zpow_pos (by norm_num) e
  obtain ⟨low, _⟩ := Interval.bounds_of_contains canonical.pos inside
  by_contra other
  have next : (4503599627370497 : ℚ) ≤ m := by
    have := canonical.normal normal
    exact_mod_cast (by omega : 4503599627370497 ≤ m)
  refine absurd small (not_lt.2 (le_trans ?_ low))
  rw [two_zpow_add]
  refine mul_le_mul_of_nonneg_right ?_ unit.le
  norm_num
  linarith

/-- A real that rounds to a double has the exponent of this double, or it lies just below a power
of two that it is rounded up to. -/
theorem Canonical.target_of_contains
    (fine : x ≤ Format.binary64.targetExponent (totalExponent n x)) :
    Format.binary64.targetExponent (totalExponent n x) = e ∨
      Format.binary64.targetExponent (totalExponent n x) = e - 1 ∧ m = 2 ^ 52 ∧
        v < 2 ^ (52 + e) := by
  have least := canonical.least
  have upper := canonical.totalExponent_le floor rest inside
  have empty : n = 0 → totalExponent n x = 1 + x := fun none => by
    rw [none, totalExponent]
    rfl
  rw [Decimal.targetExponent_eq] at fine ⊢
  by_cases lowest : e = -1074
  · omega
  have lower := canonical.lt_totalExponent floor rest inside (by omega)
  by_cases big : (2 : ℚ) ^ (52 + e) ≤ v
  · have := lt_of_two_zpow_lt (big.trans_lt (totalExponent_bounds floor rest).1)
    omega
  · rw [not_le] at big
    have either : max (totalExponent n x - 53) (-1074) = e ∨
        max (totalExponent n x - 53) (-1074) = e - 1 := by omega
    exact either.imp_right fun lower =>
      ⟨lower, canonical.least_of_lt inside (by omega) big, big⟩

end Target

theorem Canonical.roundWithAccuracy_eq {a : Accuracy} (tells : Tells a (v / 2 ^ x - n))
    (fine : x ≤ Format.binary64.targetExponent (totalExponent n x))
    (inside : (Interval.around m e).Contains v) (sign : Sign) :
    roundWithAccuracy Format.binary64 sign n x a = .finite sign m e canonical.pos := by
  have unit : (0 : ℚ) < 2 ^ e := zpow_pos (by norm_num) e
  have target := canonical.target_of_contains (sub_nonneg.1 tells.bounds.1)
    (sub_lt_iff_lt_add'.1 tells.bounds.2) inside fine
  obtain ⟨⟨low, high⟩, edge⟩ := (Interval.contains_around canonical.pos).1 inside
  have shifted (t : Int) (le : x ≤ t) :
      Shows (ExtendedMantissa.ofMantissaAndAccuracy n a >>> (t - x).toNat) (v / 2 ^ t) := by
    have unit : (2 : ℚ) ^ t = 2 ^ x * 2 ^ (t - x).toNat := by
      rw [← zpow_natCast, ← two_zpow_add, Int.toNat_of_nonneg (by omega), add_sub_cancel]
    rw [unit, ← div_div]
    exact (shows_ofMantissaAndAccuracy tells).shiftRight _
  unfold roundWithAccuracy
  obtain same | ⟨lower, power, less⟩ := target
  · have slack := (Interval.slack_bounds m e).2
    have rounded := (shifted e (same ▸ fine)).roundedMantissa (n := m)
      ⟨by linarith, high⟩ (edge.imp_right fun strict => ⟨by linarith [strict.1], strict.2⟩)
    rw [shiftToTargetExponent_eq same (same ▸ fine)]
    dsimp only
    rw [rounded, shiftToTargetExponent_eq canonical.targetExponent_eq le_rfl, sub_self]
    exact dif_neg canonical.pos.ne'
  · have unit' : (2 : ℚ) ^ e = 2 ^ (e - 1) * 2 := by
      rw [← zpow_add_one₀ (by norm_num), sub_add_cancel]
    have least : -1074 < e := by
      have := Decimal.targetExponent_eq (totalExponent n x)
      omega
    have near : ((2 ^ 53 : Nat) : ℚ) - 1 / 2 ≤ v / 2 ^ (e - 1) ∧
        v / 2 ^ (e - 1) ≤ (2 ^ 53 : Nat) + 1 / 2 := by
      have unit'' : (0 : ℚ) < 2 ^ (e - 1) := zpow_pos (by norm_num) _
      rw [power, Interval.slack, if_pos ⟨rfl, least⟩, le_div_iff₀ unit, unit'] at low
      rw [two_zpow_add, unit'] at less
      rw [le_div_iff₀ unit'', div_le_iff₀ unit'']
      norm_num at low less ⊢
      constructor <;> linarith
    have rounded := (shifted (e - 1) (lower ▸ fine)).roundedMantissa near (.inl rfl)
    have carried : Format.binary64.targetExponent (totalExponent (2 ^ 53) (e - 1)) = e := by
      rw [Decimal.targetExponent_eq, totalExponent, Nat.log2_two_pow]
      omega
    rw [shiftToTargetExponent_eq lower (lower ▸ fine)]
    dsimp only
    rw [rounded, shiftToTargetExponent_eq carried (by omega)]
    subst power
    rw [show (e - (e - 1)).toNat = 1 by omega]
    rfl

theorem Canonical.mul_eq {m₁ m₂ : Nat} {e₁ e₂ : Int} (pos₁ : 0 < m₁) (pos₂ : 0 < m₂)
    (wide : 2 ^ 53 ≤ m₁ * m₂)
    (inside : (Interval.around m e).Contains (m₁ * 2 ^ e₁ * (m₂ * 2 ^ e₂))) :
    mul Format.binary64 (.finite .positive m₁ e₁ pos₁) (.finite .positive m₂ e₂ pos₂) =
      .finite .positive m e canonical.pos := by
  refine canonical.roundWithAccuracy_eq (a := .exact) ?_ ?_ inside .positive
  · have unit : (2 : ℚ) ^ (e₁ + e₂) ≠ 0 := zpow_ne_zero _ (by norm_num)
    change _ = (0 : ℚ)
    rw [sub_eq_zero, div_eq_iff unit, two_zpow_add]
    push_cast
    ring
  · have bits : 53 ≤ (m₁ * m₂).log2 := (Nat.le_log2 (Nat.mul_pos pos₁ pos₂).ne').2 wide
    rw [Decimal.targetExponent_eq, totalExponent]
    omega

omit canonical in
theorem tells_quotient (n : Nat) {d : Nat} (pos : 0 < d) :
    Tells (accuracyOfFraction (n % d) d) ((n : ℚ) / d - (n / d : Nat)) := by
  have rest : (n : ℚ) / d - (n / d : Nat) = (n % d : Nat) / d := by
    have den : (0 : ℚ) < d := by exact_mod_cast pos
    have whole : ((d * (n / d) + n % d : Nat) : ℚ) = n := congrArg _ (Nat.div_add_mod _ _)
    rw [← whole]
    push_cast
    field_simp
    ring
  rw [rest]
  exact tells_accuracyOfFraction (Nat.mod_lt _ pos)

omit canonical in
theorem two_zpow_lt_div {m₁ m₂ : Nat} (e₁ e₂ : Int) (pos₁ : 0 < m₁) (pos₂ : 0 < m₂) :
    (2 : ℚ) ^ (totalExponent m₁ e₁ - totalExponent m₂ e₂ - 1) < m₁ * 2 ^ e₁ / (m₂ * 2 ^ e₂) := by
  have den : (0 : ℚ) < m₂ := by exact_mod_cast pos₂
  have low : ((2 ^ m₁.log2 : Nat) : ℚ) ≤ m₁ := by exact_mod_cast Nat.log2_self_le pos₁.ne'
  have high : (m₂ : ℚ) < (2 ^ (m₂.log2 + 1) : Nat) := by exact_mod_cast Nat.lt_log2_self
  push_cast at low high
  rw [lt_div_iff₀ (mul_pos den (zpow_pos (by norm_num) _))]
  calc (2 : ℚ) ^ (totalExponent m₁ e₁ - totalExponent m₂ e₂ - 1) * (m₂ * 2 ^ e₂)
      < 2 ^ (totalExponent m₁ e₁ - totalExponent m₂ e₂ - 1) * (2 ^ (m₂.log2 + 1) * 2 ^ e₂) := by
        gcongr
    _ = 2 ^ m₁.log2 * 2 ^ e₁ := by
        rw [← zpow_natCast, ← zpow_natCast, ← two_zpow_add, ← two_zpow_add, ← two_zpow_add]
        congr 1
        rw [totalExponent, totalExponent]
        push_cast
        ring
    _ ≤ m₁ * 2 ^ e₁ := by gcongr

theorem Canonical.div_eq {m₁ m₂ : Nat} {e₁ e₂ : Int} (pos₁ : 0 < m₁) (pos₂ : 0 < m₂)
    (inside : (Interval.around m e).Contains (m₁ * 2 ^ e₁ / (m₂ * 2 ^ e₂))) :
    div Format.binary64 (.finite .positive m₁ e₁ pos₁) (.finite .positive m₂ e₂ pos₂) =
      .finite .positive m e canonical.pos := by
  set total := totalExponent m₁ e₁ - totalExponent m₂ e₂ with total_eq
  set x := min (e₁ - e₂) (Format.binary64.targetExponent total) with x_eq
  set shift := (e₁ - e₂ - x).toNat with shift_eq
  -- The shifted numerator over the denominator, in units of the chosen exponent.
  have scaled : (m₁ * 2 ^ e₁ / (m₂ * 2 ^ e₂) : ℚ) / 2 ^ x = ((m₁ <<< shift : Nat) : ℚ) / m₂ := by
    have den : (0 : ℚ) < m₂ := by exact_mod_cast pos₂
    have parts : (2 : ℚ) ^ e₁ = 2 ^ shift * 2 ^ x * 2 ^ e₂ := by
      rw [← zpow_natCast, ← two_zpow_add, ← two_zpow_add]
      congr 1
      omega
    rw [Nat.shiftLeft_eq, parts]
    push_cast
    field_simp
  have tells : Tells (accuracyOfFraction ((m₁ <<< shift) % m₂) m₂)
      ((m₁ * 2 ^ e₁ / (m₂ * 2 ^ e₂) : ℚ) / 2 ^ x - ((m₁ <<< shift) / m₂ : Nat)) := by
    rw [scaled]
    exact tells_quotient _ pos₂
  have enough : total ≤ totalExponent ((m₁ <<< shift) / m₂) x := by
    have above := (totalExponent_bounds (sub_nonneg.1 tells.bounds.1)
      (sub_lt_iff_lt_add'.1 tells.bounds.2)).1
    have := lt_of_two_zpow_lt ((two_zpow_lt_div e₁ e₂ pos₁ pos₂).trans above)
    omega
  exact canonical.roundWithAccuracy_eq tells
    ((min_le_right _ _).trans (targetExponent_mono enough)) inside .positive

end Round

end TablePlan.Decimal
