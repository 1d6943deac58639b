import TablePlan.Proofs.Decimal.Rounding

/-!
The shortest decimals of doubles. A grid point that is taken lies in the interval of its double; on
the grid of seventeen digits one of the two next to the middle always does.
-/

namespace TablePlan.Decimal

def Scaled.value (x : Scaled) : ℚ :=
  x.digits * 10 ^ x.exponent

theorem zpow_eq_div {a : ℚ} (pos : 0 < a) (b : Int) : a ^ b = a ^ b.toNat / a ^ (-b).toNat := by
  rw [← zpow_natCast, ← zpow_natCast, ← zpow_sub₀ pos.ne']
  congr 1
  omega

section Ratio

variable (n : Nat) (binary decimal : Int)

theorem ratio_pos : 0 < (ratio n binary decimal).2 := by
  unfold ratio
  exact Nat.mul_pos (Nat.pow_pos (by norm_num)) (Nat.pow_pos (by norm_num))

theorem ratio_eq : ((ratio n binary decimal).1 : ℚ) / (ratio n binary decimal).2 =
    n * 2 ^ binary * 10 ^ decimal := by
  rw [zpow_eq_div (by norm_num) binary, zpow_eq_div (by norm_num) decimal]
  unfold ratio
  simp only [Nat.pow_eq]
  push_cast
  field_simp

end Ratio

namespace Interval

theorem holds_iff {i : Interval} {digits : Nat} {scale : Int} :
    i.holds digits scale = true ↔ i.Contains (digits * 10 ^ scale) := by
  have size : (0 : ℚ) < (ratio 1 i.exponent (-scale)).2 := by exact_mod_cast ratio_pos _ _ _
  have tens : (0 : ℚ) < 10 ^ scale := zpow_pos (by norm_num) _
  have unit : ((ratio 1 i.exponent (-scale)).1 : ℚ) =
      2 ^ i.exponent / 10 ^ scale * (ratio 1 i.exponent (-scale)).2 := by
    rw [← div_eq_iff size.ne', ratio_eq, Nat.cast_one, one_mul, zpow_neg, div_eq_mul_inv]
  have le (n : Nat) : n * (ratio 1 i.exponent (-scale)).1 ≤
      digits * (ratio 1 i.exponent (-scale)).2 ↔
        (n : ℚ) * 2 ^ i.exponent ≤ digits * 10 ^ scale := by
    rw [← Nat.cast_le (α := ℚ)]
    push_cast
    rw [unit, ← mul_assoc, mul_le_mul_iff_left₀ size, ← mul_div_assoc, div_le_iff₀ tens]
  have ge (n : Nat) : digits * (ratio 1 i.exponent (-scale)).2 ≤
      n * (ratio 1 i.exponent (-scale)).1 ↔ (digits : ℚ) * 10 ^ scale ≤ n * 2 ^ i.exponent := by
    rw [← Nat.cast_le (α := ℚ)]
    push_cast
    rw [unit, ← mul_assoc, mul_le_mul_iff_left₀ size, ← mul_div_assoc, le_div_iff₀ tens]
  unfold holds Contains
  dsimp only
  split_ifs
  · rw [Bool.and_eq_true, decide_eq_true_eq, decide_eq_true_eq, le, ge]
  · rw [Bool.and_eq_true, decide_eq_true_eq, decide_eq_true_eq, ← not_le, ← not_le, le, ge, not_le,
      not_le]

def below (i : Interval) (scale : Int) : Nat :=
  (ratio i.middle i.exponent (-scale)).1 / (ratio i.middle i.exponent (-scale)).2

theorem holds_of_nearest? {i : Interval} {tie : Tie} {scale : Int} {digits : Nat}
    (taken : i.nearest? tie scale = some digits) : i.holds digits scale = true ∧ digits ≠ 0 := by
  unfold nearest? at taken
  dsimp only at taken
  split at taken
  · cases taken
  · rename_i below _
    cases taken
    simpa using below
  · rename_i _ above
    cases taken
    exact ⟨above, Nat.succ_ne_zero _⟩
  · rename_i below above
    rw [Bool.and_eq_true, bne_iff_ne] at below
    have above : i.holds (i.below scale + 1) scale = true ∧ i.below scale + 1 ≠ 0 :=
      ⟨above, Nat.succ_ne_zero _⟩
    split at taken
    · cases taken
      exact below
    · split at taken
      · cases tie with
        | up =>
          cases taken
          exact above
        | even =>
          dsimp only at taken
          split at taken <;> cases taken
          · exact below
          · exact above
      · cases taken
        exact above

theorem exists_nearest? {i : Interval} {scale : Int}
    (holds : i.holds (i.below scale) scale = true ∧ i.below scale ≠ 0 ∨
      i.holds (i.below scale + 1) scale = true) (tie : Tie) :
    ∃ digits, i.nearest? tie scale = some digits := by
  unfold nearest?
  dsimp only
  split
  · rename_i none_below none_above
    obtain ⟨inside, some⟩ := holds.resolve_right fun above =>
      Bool.false_ne_true (none_above.symm.trans above)
    have taken : (i.holds (i.below scale) scale && i.below scale != 0) = true := by
      rw [inside, Bool.true_and, bne_iff_ne]
      exact some
    exact absurd (none_below.symm.trans taken) Bool.false_ne_true
  · exact ⟨_, rfl⟩
  · exact ⟨_, rfl⟩
  · split
    · exact ⟨_, rfl⟩
    · split
      · cases tie <;> exact ⟨_, rfl⟩
      · exact ⟨_, rfl⟩

theorem below_bounds (i : Interval) (scale : Int) :
    i.below scale * 10 ^ scale ≤ i.middle * (2 : ℚ) ^ i.exponent ∧
      i.middle * (2 : ℚ) ^ i.exponent < (i.below scale + 1) * 10 ^ scale := by
  have tens : (0 : ℚ) < 10 ^ scale := zpow_pos (by norm_num) _
  have size : (0 : ℚ) < (ratio i.middle i.exponent (-scale)).2 := by
    exact_mod_cast ratio_pos _ _ _
  have value := ratio_eq i.middle i.exponent (-scale)
  rw [zpow_neg, ← div_eq_mul_inv] at value
  rw [← le_div_iff₀ tens, ← div_lt_iff₀ tens, ← value, le_div_iff₀ size, div_lt_iff₀ size]
  unfold below
  have pos := ratio_pos i.middle i.exponent (-scale)
  constructor
  · exact_mod_cast Nat.div_mul_le_self _ _
  · exact_mod_cast (Nat.div_lt_iff_lt_mul pos).1 (Nat.lt_succ_self _)

theorem exists_nearest?_around {m : Nat} {e : Int} (canonical : Canonical m e) {scale : Int}
    (fine : (10 : ℚ) ^ scale * 10 ^ 16 ≤ m * 2 ^ e) (tie : Tie) :
    ∃ digits, (around m e).nearest? tie scale = some digits := by
  have unit : (0 : ℚ) < 2 ^ e := zpow_pos (by norm_num) e
  have tens : (0 : ℚ) < 10 ^ scale := zpow_pos (by norm_num) _
  have middle : ((around m e).middle : ℚ) * 2 ^ (around m e).exponent = m * 2 ^ e := by
    have quarter : (2 : ℚ) ^ (e - 2) = 2 ^ e / 4 := by
      rw [zpow_sub₀ (by norm_num)]
      norm_num
    change ((4 * m : Nat) : ℚ) * 2 ^ (e - 2) = m * 2 ^ e
    rw [quarter]
    push_cast
    ring
  obtain ⟨low, high⟩ := below_bounds (around m e) scale
  rw [middle] at low high
  set b := (around m e).below scale with b_eq
  refine exists_nearest? ?_ tie
  rw [holds_iff, holds_iff, contains_around canonical.pos, contains_around canonical.pos]
  push_cast
  rw [mul_div_assoc, mul_div_assoc]
  -- from here on in units of the last place of the double
  rw [← div_le_iff₀ unit, mul_div_right_comm] at fine
  rw [← div_le_iff₀ unit, mul_div_assoc] at low
  rw [← lt_div_iff₀ unit, mul_div_assoc] at high
  have step : (0 : ℚ) < 10 ^ scale / 2 ^ e := div_pos tens unit
  generalize (10 : ℚ) ^ scale / 2 ^ e = p at *
  have narrow : p < 1 / 2 + slack m e := by
    unfold Interval.slack
    split_ifs with power
    · have power : (m : ℚ) = 4503599627370496 := by exact_mod_cast power.1
      linarith
    · have bits : (m : ℚ) < 9007199254740992 := by exact_mod_cast canonical.bits
      linarith
  have slack := (slack_bounds m e).1
  by_cases near : ((b : ℚ) + 1) * p < m + 1 / 2
  · exact .inr ⟨⟨by linarith, near.le⟩, .inr ⟨by linarith, near⟩⟩
  · refine .inl ⟨⟨⟨by linarith, by linarith⟩, .inr ⟨by linarith, by linarith⟩⟩, fun zero => ?_⟩
    rw [b_eq, zero, Nat.cast_zero] at high
    linarith

end Interval

section Digits

theorem lt_pow_digitCount (n : Nat) : n < 10 ^ digitCount n :=
  (Nat.length_toDigits_le_iff (by norm_num) Nat.length_toDigits_pos).1 le_rfl

theorem pow_digitCount_le {n : Nat} (pos : 0 < n) : 10 ^ (digitCount n - 1) ≤ n := by
  have some : 0 < digitCount n := Nat.length_toDigits_pos
  obtain one | more := Nat.eq_or_lt_of_le some
  · rw [← one]
    exact pos
  · refine not_lt.1 fun less => ?_
    have := (Nat.length_toDigits_le_iff (by norm_num) (by omega)).2 less
    unfold digitCount at more this
    omega

theorem pow_leadingExponent_le {m : Nat} (pos : 0 < m) (e : Int) :
    (10 : ℚ) ^ leadingExponent m e ≤ m * 2 ^ e := by
  unfold leadingExponent
  split_ifs with whole
  · have some : 0 < digitCount (m * Nat.pow 2 e.toNat) := Nat.length_toDigits_pos
    have least := pow_digitCount_le (n := m * Nat.pow 2 e.toNat)
      (Nat.mul_pos pos (Nat.pow_pos (by norm_num)))
    rw [show ((digitCount (m * Nat.pow 2 e.toNat) : Int) - 1) =
      (digitCount (m * Nat.pow 2 e.toNat) - 1 : Nat) by omega, zpow_natCast]
    have exponent : (2 : ℚ) ^ e = 2 ^ e.toNat := by
      rw [← zpow_natCast, Int.toNat_of_nonneg whole]
    rw [exponent]
    exact_mod_cast least
  · dsimp only
    set n := m * Nat.pow 5 (-e).toNat with n_eq
    have some : 0 < digitCount n := Nat.length_toDigits_pos
    have least := pow_digitCount_le (n := n) (Nat.mul_pos pos (Nat.pow_pos (by norm_num)))
    have value : (m : ℚ) * 2 ^ e = n / 10 ^ (-e).toNat := by
      have halves : (2 : ℚ) ^ e = 1 / 2 ^ (-e).toNat := by
        rw [zpow_eq_div (by norm_num), show e.toNat = 0 by omega, pow_zero]
      have tens : (10 : ℚ) ^ (-e).toNat = 5 ^ (-e).toNat * 2 ^ (-e).toNat := by
        rw [← mul_pow]
        norm_num
      rw [halves, tens, n_eq, Nat.pow_eq]
      push_cast
      field_simp
    rw [value, le_div_iff₀ (by positivity), ← zpow_natCast, ← zpow_add₀ (by norm_num),
      show (digitCount n : Int) - (-e).toNat - 1 + (-e).toNat = (digitCount n - 1 : Nat) by omega,
      zpow_natCast]
    exact_mod_cast least

theorem value_stripZeros (x : Scaled) (fuel : Nat) : (x.stripZeros fuel).value = x.value ∧
    ((x.stripZeros fuel).digits ≠ 0 ↔ x.digits ≠ 0) := by
  induction fuel generalizing x with
  | zero => exact ⟨rfl, Iff.rfl⟩
  | succ fuel ih =>
    rw [Scaled.stripZeros]
    split_ifs with zero
    · obtain ⟨value, some⟩ := ih ⟨x.digits / 10, x.exponent + 1⟩
      rw [value, some]
      refine ⟨?_, by dsimp only; omega⟩
      have tens : ((x.digits / 10 * 10 : Nat) : ℚ) = x.digits :=
        congrArg _ (Nat.div_mul_cancel (Nat.dvd_of_mod_eq_zero zero.1))
      push_cast at tens
      unfold Scaled.value
      dsimp only
      rw [zpow_add_one₀ (by norm_num), ← tens]
      ring
    · exact ⟨rfl, Iff.rfl⟩

end Digits

theorem Canonical.shortest_contained {m : Nat} {e : Int} (canonical : Canonical m e) (tie : Tie) :
    (Interval.around m e).Contains (shortest tie m e).value ∧ (shortest tie m e).digits ≠ 0 := by
  obtain ⟨digits, last⟩ : ∃ digits,
      (Interval.around m e).nearest? tie (leadingExponent m e - (16 : Nat)) = some digits := by
    refine Interval.exists_nearest?_around canonical ?_ tie
    have whole : (10 : ℚ) ^ (leadingExponent m e - (16 : Nat)) * 10 ^ 16 =
        10 ^ leadingExponent m e := by
      rw [zpow_sub₀ (by norm_num), zpow_natCast]
      exact div_mul_cancel₀ _ (by norm_num)
    rw [whole]
    exact pow_leadingExponent_le canonical.pos e
  unfold shortest
  dsimp only
  cases found : (List.range 17).findSome? fun places : Nat =>
      ((Interval.around m e).nearest? tie (leadingExponent m e - places)).map fun digits =>
        Scaled.mk digits (leadingExponent m e - places) with
  | none =>
    have none := List.findSome?_eq_none_iff.1 found 16 (by decide)
    rw [last] at none
    cases none
  | some x =>
    obtain ⟨places, _, mapped⟩ := List.exists_of_findSome?_eq_some found
    obtain ⟨digits, taken, rfl⟩ := Option.map_eq_some_iff.1 mapped
    obtain ⟨holds, some⟩ := Interval.holds_of_nearest? taken
    rw [Option.getD_some, (value_stripZeros _ _).1, (value_stripZeros _ _).2]
    exact ⟨Interval.holds_iff.1 holds, some⟩

end TablePlan.Decimal
