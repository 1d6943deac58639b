import TablePlan.Proofs.Decimal.Rounding

/-!
Doubles from their parts and from decimals. A finite double is its sign, mantissa and exponent
packed together; a decimal that lies in the interval of a double is read as this double, on the fast
path by one product or quotient of exact doubles and on the slow one by exact integers.
-/

namespace TablePlan.Decimal

open Float.Model Float.Model.UnpackedFloat

def signOf (negative : Bool) : Sign :=
  if negative then .negative else .positive

def finiteFloat (negative : Bool) (m : Nat) (e : Int) (pos : 0 < m) : Float :=
  .ofModel (.pack (.finite (signOf negative) m e pos))

section Packing

theorem unpackSign_packComponents (sign : Sign) (exponent : BitVec 11) (mantissa : BitVec 52) :
    Sign.ofBitVec (unpackSign (packComponents Format.binary64 sign exponent mantissa)) = sign := by
  have same : unpackSign (packComponents Format.binary64 sign exponent mantissa) =
      sign.toBitVec := by
    change (sign.toBitVec ++ exponent ++ mantissa).extractLsb' 63 1 = sign.toBitVec
    rw [BitVec.extractLsb'_append_eq_of_le (by decide),
      BitVec.extractLsb'_append_eq_of_le (by decide)]
    exact BitVec.extractLsb'_eq_self
  rw [same]
  cases sign <;> rfl

theorem toNat_implicit (mantissa : BitVec 52) :
    (1#1 ++ mantissa).toNat = 2 ^ 52 + mantissa.toNat := by
  rw [BitVec.toNat_append, ← Nat.shiftLeft_add_eq_or_of_lt mantissa.isLt]
  simp [Nat.shiftLeft_eq]

variable {m : Nat} {e : Int} (canonical : Canonical m e) (top : e ≤ 971)

include canonical top

theorem Canonical.pack_eq (sign : Sign) :
    UnpackedFloat.pack Format.binary64 (.finite sign m e canonical.pos) =
      packComponents Format.binary64 sign
        (if 2 ^ 52 ≤ m then BitVec.ofNat 11 (e + 1075).toNat else 0#11) (BitVec.ofNat 52 m) := by
  have least := canonical.least
  have biased : (e + Format.binary64.exponentBias + Format.binary64.mantissaBitsWithoutImplicit)
      = e + 1075 := by
    simp [Format.exponentBias]
    ring
  have small : ¬ 2 ^ Format.binary64.exponentBits ≤ (e + 1075).toNat + 1 := by
    change ¬ 2048 ≤ _
    omega
  unfold UnpackedFloat.pack
  dsimp only
  rw [biased, if_neg small]
  by_cases full : 2 ^ 52 ≤ m
  · have log : m.log2 + 1 = Format.binary64.mantissaBits :=
      congrArg (· + 1) ((Nat.log2_eq_iff canonical.pos.ne').2 ⟨full, canonical.bits⟩)
    rw [if_pos log, if_pos full]
  · have log : ¬ m.log2 + 1 = Format.binary64.mantissaBits := by
      have := (Nat.log2_lt canonical.pos.ne').2 (Nat.lt_of_not_le full)
      change ¬ m.log2 + 1 = 53
      omega
    rw [if_neg log, if_neg full]

section Unpacking

omit canonical top

variable {b : BitVec Format.binary64.numBits} {sign : Sign} {pos : 0 < m}

theorem unpack_normal (notTop : unpackExponent b ≠ -1#11) (notLeast : unpackExponent b ≠ 0#11)
    (signs : Sign.ofBitVec (unpackSign b) = sign) (mantissa : (1#1 ++ unpackMantissa b).toNat = m)
    (exponent : ((unpackExponent b).toNat : Int) - 1075 = e) :
    UnpackedFloat.unpack Format.binary64 b = .finite sign m e pos := by
  subst signs mantissa exponent
  exact (if_neg notTop).trans (if_neg notLeast)

theorem unpack_subnormal (notTop : unpackExponent b ≠ -1#11) (least : unpackExponent b = 0#11)
    (some : unpackMantissa b ≠ 0#52) (signs : Sign.ofBitVec (unpackSign b) = sign)
    (mantissa : (unpackMantissa b).toNat = m)
    (exponent : ((unpackExponent b).toNat : Int) - 1075 + 1 = e) :
    UnpackedFloat.unpack Format.binary64 b = .finite sign m e pos := by
  subst signs mantissa exponent
  exact (if_neg notTop).trans ((if_pos least).trans (dif_neg some))

end Unpacking

theorem Canonical.unpack_pack (sign : Sign) :
    (Float.Model.pack (.finite sign m e canonical.pos)).unpack =
      .finite sign m e canonical.pos := by
  have least := canonical.least
  have bits := canonical.bits
  change UnpackedFloat.unpack Format.binary64 (UnpackedFloat.pack Format.binary64 _) = _
  rw [canonical.pack_eq top]
  by_cases full : 2 ^ 52 ≤ m
  · rw [if_pos full]
    have exponent : (BitVec.ofNat 11 (e + 1075).toNat).toNat = (e + 1075).toNat :=
      Nat.mod_eq_of_lt (by omega)
    refine unpack_normal ?_ ?_ (unpackSign_packComponents _ _ _) ?_ ?_
    all_goals simp only [unpackMantissa_packComponents, unpackExponent_packComponents]
    · intro same
      have value : _ = 2047 := congrArg BitVec.toNat same
      omega
    · intro same
      have value : _ = 0 := congrArg BitVec.toNat same
      omega
    · rw [toNat_implicit, BitVec.toNat_ofNat]
      omega
    · omega
  · rw [if_neg full]
    have lowest : e = -1074 := by
      by_contra other
      exact full (canonical.normal (by omega))
    refine unpack_subnormal ?_ ?_ ?_ (unpackSign_packComponents _ _ _) ?_ ?_
    all_goals simp only [unpackMantissa_packComponents, unpackExponent_packComponents]
    · decide
    · intro same
      have value : m % 2 ^ 52 = 0 := congrArg BitVec.toNat same
      have := canonical.pos
      omega
    · exact Nat.mod_eq_of_lt (by omega)
    · rw [lowest]
      rfl

omit canonical top in
theorem toNat_packComponents (sign : Sign) (exponent : BitVec 11) (mantissa : BitVec 52) :
    (packComponents Format.binary64 sign exponent mantissa).toNat =
      sign.toBitVec.toNat * 2 ^ 63 + exponent.toNat * 2 ^ 52 + mantissa.toNat := by
  change (sign.toBitVec ++ exponent ++ mantissa).toNat = _
  rw [BitVec.toNat_append, ← Nat.shiftLeft_add_eq_or_of_lt mantissa.isLt, BitVec.toNat_append,
    ← Nat.shiftLeft_add_eq_or_of_lt exponent.isLt, Nat.shiftLeft_eq, Nat.shiftLeft_eq]
  ring

theorem Canonical.toBits_finiteFloat (negative : Bool) :
    (finiteFloat negative m e canonical.pos).toBits.toNat = (if negative then 2 ^ 63 else 0) +
      if 2 ^ 52 ≤ m then (e + 1075).toNat * 2 ^ 52 + (m - 2 ^ 52) else m := by
  have least := canonical.least
  have bits := canonical.bits
  have sign : (signOf negative).toBitVec.toNat * 2 ^ 63 = if negative then 2 ^ 63 else 0 := by
    cases negative <;> rfl
  have packed : (finiteFloat negative m e canonical.pos).toBits.toNat = (UnpackedFloat.pack
      Format.binary64 (.finite (signOf negative) m e canonical.pos)).toNat := rfl
  rw [packed, canonical.pack_eq top, toNat_packComponents, sign, BitVec.toNat_ofNat, Nat.add_assoc]
  by_cases full : 2 ^ 52 ≤ m
  · rw [if_pos full, if_pos full, BitVec.toNat_ofNat]
    omega
  · rw [if_neg full, if_neg full, BitVec.toNat_zero]
    omega

end Packing

section Parts

theorem float_ext {x y : Float} (same : x.toBits.toNat = y.toBits.toNat) : x = y := by
  obtain ⟨⟨bits, valid⟩⟩ := x
  obtain ⟨⟨bits', valid'⟩⟩ := y
  obtain rfl : bits = bits' := UInt64.toNat_inj.1 same
  rfl

theorem toBits_of_ofFloat {x : Float} {negative : Bool} {m : Nat} {e : Int}
    (parts : Binary64.ofFloat x = .finite negative m e) :
    (m < 2 ^ 53 ∧ -1074 ≤ e ∧ e ≤ 971 ∧ (-1074 < e → 2 ^ 52 ≤ m)) ∧
      x.toBits.toNat = (if negative then 2 ^ 63 else 0) +
        if 2 ^ 52 ≤ m then (e + 1075).toNat * 2 ^ 52 + (m - 2 ^ 52) else m := by
  have word : x.toBits.toNat < 2 ^ 64 := x.toBits.toNat_lt
  have sign {b : Bool} (same : (x.toBits.toNat / 2 ^ 63 == 1) = b) :
      (if b then 2 ^ 63 else 0) = x.toBits.toNat / 2 ^ 63 * 2 ^ 63 := by
    obtain zero | one : x.toBits.toNat / 2 ^ 63 = 0 ∨ x.toBits.toNat / 2 ^ 63 = 1 := by omega
    · rw [← same, zero]
      rfl
    · rw [← same, one]
      rfl
  unfold Binary64.ofFloat Binary64.ofBits at parts
  dsimp only at parts
  rw [show Nat.pow 2 63 = 2 ^ 63 from rfl, show Nat.pow 2 52 = 2 ^ 52 from rfl] at parts
  split_ifs at parts with top zero lowest
  · simp only [Binary64.finite.injEq] at parts
    obtain ⟨negative_eq, rfl, rfl⟩ := parts
    rw [sign negative_eq, if_neg (by omega)]
    omega
  · simp only [Binary64.finite.injEq] at parts
    obtain ⟨negative_eq, rfl, exponent⟩ := parts
    rw [Int.subNatNat_eq_coe] at exponent
    rw [sign negative_eq, if_pos (by omega)]
    omega

theorem finite_of_ofFloat {x : Float} {negative : Bool} {m : Nat} {e : Int}
    (parts : Binary64.ofFloat x = .finite negative m e) (pos : 0 < m) :
    Canonical m e ∧ e ≤ 971 ∧ x = finiteFloat negative m e pos := by
  obtain ⟨⟨bits, least, top, normal⟩, word⟩ := toBits_of_ofFloat parts
  have canonical : Canonical m e := ⟨pos, bits, least, normal⟩
  exact ⟨canonical, top, float_ext (word.trans (canonical.toBits_finiteFloat top negative).symm)⟩

theorem zero_of_ofFloat {x : Float} {negative : Bool} {e : Int}
    (parts : Binary64.ofFloat x = .finite negative 0 e) : x = if negative then -0 else 0 := by
  have zeros : (if negative then -0 else 0 : Float).toBits.toNat =
      if negative then 2 ^ 63 else 0 := by
    cases negative <;> decide +kernel
  exact float_ext ((toBits_of_ofFloat parts).2.trans zeros.symm)

theorem neg_finiteFloat {m : Nat} {e : Int} (canonical : Canonical m e) (top : e ≤ 971) :
    -finiteFloat false m e canonical.pos = finiteFloat true m e canonical.pos := by
  change Float.ofModel (Float.Model.pack (Float.Model.unpack (.pack _)).neg) = _
  rw [finiteFloat, canonical.unpack_pack top]
  rfl

end Parts

section Decimals

theorem Interval.contains_middle {m : Nat} {e : Int} (pos : 0 < m) :
    (Interval.around m e).Contains (m * 2 ^ e) := by
  have unit : (2 : ℚ) ^ e ≠ 0 := zpow_ne_zero _ (by norm_num)
  have slack := (slack_bounds m e).1
  rw [contains_around pos, mul_div_cancel_right₀ _ unit]
  exact ⟨⟨by linarith, by linarith⟩, .inr ⟨by linarith, by linarith⟩⟩

theorem Interval.size_of_contains {m : Nat} {e : Int} (canonical : Canonical m e) (top : e ≤ 971)
    {v : ℚ} (inside : (Interval.around m e).Contains v) : 2 ^ (-1075 : Int) ≤ v ∧
      v < 2 ^ (1024 : Int) := by
  have unit : (0 : ℚ) < 2 ^ e := zpow_pos (by norm_num) e
  obtain ⟨low, high⟩ := bounds_of_contains canonical.pos inside
  have some : (1 : ℚ) ≤ m := by exact_mod_cast canonical.pos
  have bits : (m : ℚ) + 1 ≤ 2 ^ 53 := by exact_mod_cast canonical.bits
  constructor
  · calc (2 : ℚ) ^ (-1075 : Int) ≤ 2 ^ (e - 1) :=
          zpow_le_zpow_right₀ (by norm_num) (by linarith [canonical.least])
      _ = 1 / 2 * 2 ^ e := by rw [zpow_sub_one₀ (by norm_num)]; ring
      _ ≤ (m - 1 / 2) * 2 ^ e := mul_le_mul_of_nonneg_right (by linarith) unit.le
      _ ≤ v := low
  · calc v ≤ (m + 1 / 2) * 2 ^ e := high
      _ < 2 ^ 53 * 2 ^ e := mul_lt_mul_of_pos_right (by linarith) unit
      _ = 2 ^ (53 + e) := by rw [two_zpow_add]; norm_num
      _ ≤ 2 ^ (1024 : Int) := zpow_le_zpow_right₀ (by norm_num) (by linarith)

theorem Interval.pos_of_contains {m : Nat} {e : Int} (canonical : Canonical m e) (top : e ≤ 971)
    {d : Nat} {unit : ℚ} (inside : (Interval.around m e).Contains (d * unit)) : 0 < d := by
  refine Nat.pos_of_ne_zero fun zero => ?_
  have least := (Interval.size_of_contains canonical top inside).1
  rw [zero, Nat.cast_zero, zero_mul] at least
  exact absurd (zpow_pos (by norm_num : (0 : ℚ) < 2) _) (not_lt.2 least)

theorem canonical_ofNat {n : Nat} (pos : 0 < n) (small : n < 2 ^ 53) :
    Canonical (n <<< (52 - n.log2)) ((n.log2 : Int) - 52) := by
  have log : n.log2 ≤ 52 := Nat.le_of_lt_succ ((Nat.log2_lt pos.ne').2 small)
  have parts {k : Nat} (bits : n.log2 ≤ k) : 2 ^ k = 2 ^ n.log2 * 2 ^ (k - n.log2) := by
    rw [← Nat.pow_add, Nat.add_sub_cancel' bits]
  rw [Nat.shiftLeft_eq]
  refine ⟨Nat.mul_pos pos (Nat.two_pow_pos _), ?_, by omega, fun _ => ?_⟩
  · have next : 53 = 52 + 1 := rfl
    rw [next, Nat.pow_succ, parts log, Nat.mul_right_comm, ← Nat.pow_succ]
    exact Nat.mul_lt_mul_of_pos_right Nat.lt_log2_self (Nat.two_pow_pos _)
  · rw [parts log]
    exact Nat.mul_le_mul_right _ (Nat.log2_self_le pos.ne')

theorem size_ofNat {n : Nat} (pos : 0 < n) (small : n < 2 ^ 53) :
    ((n <<< (52 - n.log2) : Nat) : ℚ) * 2 ^ ((n.log2 : Int) - 52) = n := by
  have log : n.log2 ≤ 52 := Nat.le_of_lt_succ ((Nat.log2_lt pos.ne').2 small)
  rw [Nat.shiftLeft_eq]
  push_cast
  rw [mul_assoc, ← zpow_natCast, ← two_zpow_add]
  have none : ((52 - n.log2 : Nat) : Int) + (n.log2 - 52) = 0 := by omega
  rw [none, zpow_zero, mul_one]

theorem unpack_ofNat {n : Nat} (pos : 0 < n) (small : n < 2 ^ 53) :
    n.toUInt64.toFloat.toModel.unpack =
      .finite .positive (n <<< (52 - n.log2)) ((n.log2 : Int) - 52)
        (canonical_ofNat pos small).pos := by
  have log : n.log2 ≤ 52 := Nat.le_of_lt_succ ((Nat.log2_lt pos.ne').2 small)
  have canonical := canonical_ofNat pos small
  have word : n.toUInt64.toNat = n := by
    rw [Nat.toUInt64, UInt64.toNat_ofNat']
    omega
  have target : Format.binary64.targetExponent (totalExponent n 0) = (n.log2 : Int) - 52 := by
    rw [Decimal.targetExponent_eq, totalExponent]
    omega
  have rounded : UnpackedFloat.round Format.binary64 .positive n 0 =
      .finite .positive (n <<< (52 - n.log2)) ((n.log2 : Int) - 52) canonical.pos := by
    have shift : (0 - ((n.log2 : Int) - 52)).toNat = 52 - n.log2 := by omega
    have exponent : (0 : Int) - ((52 - n.log2 : Nat) : Int) = (n.log2 : Int) - 52 := by omega
    rw [UnpackedFloat.round, target, decreaseExponent]
    dsimp only
    rw [shift, exponent]
    refine canonical.roundWithAccuracy_eq ?_ canonical.targetExponent_eq.ge
      (Interval.contains_middle canonical.pos) .positive
    have unit : (2 : ℚ) ^ ((n.log2 : Int) - 52) ≠ 0 := zpow_ne_zero _ (by norm_num)
    rw [mul_div_cancel_right₀ _ unit, sub_self]
    rfl
  have positive : compare (n : Int) 0 = .gt := Int.compare_eq_gt.2 (by omega)
  change (Float.Model.pack (UnpackedFloat.normalize Format.binary64 (n.toUInt64.toNat : Int) 0
    .positive)).unpack = _
  rw [word, UnpackedFloat.normalize, positive]
  dsimp only
  rw [Int.toNat_natCast, rounded, canonical.unpack_pack (by omega)]

def isPowerOfTen (k : Nat) : UnpackedFloat → Bool
  | .finite .positive m e _ =>
    decide (2 ^ 52 ≤ m ∧ -52 ≤ e ∧ m * 2 ^ (e + 52).toNat = 10 ^ k * 2 ^ 52)
  | _ => false

theorem isPowerOfTen_table : ∀ k : Fin 23,
    isPowerOfTen k Float.exactlyRepresentablePowersOfTen[k].toModel.unpack = true := by
  decide +kernel

theorem exists_of_isPowerOfTen {k : Nat} {u : UnpackedFloat} (power : isPowerOfTen k u = true) :
    ∃ m e pos, u = .finite .positive m e pos ∧ 2 ^ 52 ≤ m ∧ (m * 2 ^ e : ℚ) = 10 ^ k := by
  cases u with
  | finite sign m e pos =>
    cases sign with
    | positive =>
      obtain ⟨bits, least, value⟩ := of_decide_eq_true power
      refine ⟨m, e, pos, rfl, bits, ?_⟩
      have value : (m : ℚ) * 2 ^ (e + 52).toNat = 10 ^ k * 2 ^ 52 := by exact_mod_cast value
      rw [← zpow_natCast, Int.toNat_of_nonneg (by omega), two_zpow_add, ← mul_assoc] at value
      exact mul_right_cancel₀ (by norm_num) value
    | negative => cases power
  | _ => cases power

variable {m : Nat} {e : Int} (canonical : Canonical m e)

include canonical

theorem Canonical.fast_div {d k : Nat} {power : Float} (pos : 0 < d) (small : d < 2 ^ 53)
    (exact_power : isPowerOfTen k power.toModel.unpack = true)
    (inside : (Interval.around m e).Contains (d / 10 ^ k)) :
    d.toUInt64.toFloat / power = finiteFloat false m e canonical.pos := by
  obtain ⟨m₂, e₂, pos₂, unpacked, _, value⟩ := exists_of_isPowerOfTen exact_power
  change Float.ofModel (.pack (UnpackedFloat.div Format.binary64 d.toUInt64.toFloat.toModel.unpack
    power.toModel.unpack)) = _
  rw [unpack_ofNat pos small, unpacked, canonical.div_eq _ pos₂]
  · rfl
  · rw [size_ofNat pos small, value]
    exact inside

theorem Canonical.fast_mul {d k : Nat} {power : Float} (pos : 0 < d) (small : d < 2 ^ 53)
    (exact_power : isPowerOfTen k power.toModel.unpack = true)
    (inside : (Interval.around m e).Contains (d * 10 ^ k)) :
    d.toUInt64.toFloat * power = finiteFloat false m e canonical.pos := by
  obtain ⟨m₂, e₂, pos₂, unpacked, bits, value⟩ := exists_of_isPowerOfTen exact_power
  have canonical' := canonical_ofNat pos small
  change Float.ofModel (.pack (UnpackedFloat.mul Format.binary64 d.toUInt64.toFloat.toModel.unpack
    power.toModel.unpack)) = _
  rw [unpack_ofNat pos small, unpacked, canonical.mul_eq _ pos₂]
  · rfl
  · have log : d.log2 ≤ 52 := Nat.le_of_lt_succ ((Nat.log2_lt pos.ne').2 small)
    exact le_trans (by norm_num) (Nat.mul_le_mul (canonical'.normal (by omega)) bits)
  · rw [size_ofNat pos small, value]
    exact inside

variable (top : e ≤ 971)

include top

theorem Canonical.slow_mul {d k : Nat} (pos : 0 < d)
    (inside : (Interval.around m e).Contains (d * 10 ^ k)) :
    UnpackedFloat.ofScientific Format.binary64 d (k : Int) =
      .finite .positive m e canonical.pos := by
  have most := (Interval.size_of_contains canonical top inside).2
  have exponents : (2 ^ Format.binary64.exponentBits : Int) = 2048 := rfl
  have few : k < 1024 := by
    by_contra many
    have some : (1 : ℚ) ≤ d := by exact_mod_cast pos
    refine absurd most (not_lt.2 ?_)
    calc (2 : ℚ) ^ (1024 : Int) ≤ 2 ^ (k : Int) := zpow_le_zpow_right₀ (by norm_num) (by omega)
      _ = 2 ^ k := zpow_natCast _ _
      _ ≤ 10 ^ k := pow_le_pow_left₀ (by norm_num) (by norm_num) k
      _ ≤ d * 10 ^ k := le_mul_of_one_le_left (by positivity) some
  unfold UnpackedFloat.ofScientific
  rw [dif_neg pos.ne', exponents, if_neg (by omega), if_neg (by omega), if_pos (by omega)]
  have bits : (Format.binary64.mantissaBits : Int) = 53 := rfl
  have shift : d <<< Format.binary64.mantissaBits = d * 2 ^ 53 := Nat.shiftLeft_eq _ _
  refine canonical.mul_eq _ _ ?_ ?_
  · rw [shift, Int.toNat_natCast]
    exact (Nat.le_mul_of_pos_left _ pos).trans (Nat.le_mul_of_pos_right _ (by positivity))
  · rw [shift, bits, Int.toNat_natCast, zpow_zero, mul_one]
    have size : ((d * 2 ^ 53 : Nat) : ℚ) * 2 ^ (-53 : Int) = d := by
      rw [zpow_neg]
      push_cast
      exact mul_inv_cancel_right₀ (by norm_num) _
    rw [size]
    push_cast
    exact inside

theorem Canonical.slow_div {d k : Nat} (pos : 0 < d)
    (inside : (Interval.around m e).Contains (d / 10 ^ k)) :
    UnpackedFloat.ofScientific Format.binary64 d (-(k : Int)) =
      .finite .positive m e canonical.pos := by
  obtain rfl | some := Nat.eq_zero_or_pos k
  · refine canonical.slow_mul top (k := 0) pos ?_
    simpa using inside
  have least := (Interval.size_of_contains canonical top inside).1
  have exponents : (2 ^ Format.binary64.exponentBits : Int) = 2048 := rfl
  have near : k < d.log2 + 1 + 1075 := by
    by_contra far
    have digits : (d : ℚ) < (2 ^ (d.log2 + 1) : Nat) := by exact_mod_cast Nat.lt_log2_self
    push_cast at digits
    have tens : (2 : ℚ) ^ ((d.log2 + 1 + 1075 : Nat) : Int) ≤ 10 ^ k := by
      rw [zpow_natCast]
      exact (pow_le_pow_right₀ (by norm_num) (not_lt.1 far)).trans
        (pow_le_pow_left₀ (by norm_num) (by norm_num) k)
    have unit : (0 : ℚ) < 2 ^ (-1075 : Int) := zpow_pos (by norm_num) _
    have exponent : (-1075 : Int) + ((d.log2 + 1 + 1075 : Nat) : Int) = (d.log2 + 1 : Nat) := by
      omega
    refine absurd least (not_le.2 ?_)
    rw [div_lt_iff₀ (by positivity)]
    calc (d : ℚ) < 2 ^ (d.log2 + 1) := digits
      _ = 2 ^ (-1075 : Int) * 2 ^ ((d.log2 + 1 + 1075 : Nat) : Int) := by
          rw [← two_zpow_add, exponent, zpow_natCast]
      _ ≤ 2 ^ (-1075 : Int) * 10 ^ k := mul_le_mul_of_nonneg_left tens unit.le
  unfold UnpackedFloat.ofScientific
  rw [dif_neg pos.ne', exponents, if_neg (by omega), if_neg (by omega), if_neg (by omega)]
  refine canonical.div_eq _ _ ?_
  rw [neg_neg, Int.toNat_natCast, zpow_zero, mul_one, mul_one]
  push_cast
  exact inside

theorem Canonical.ofScientific_eq {d k : Nat} {below : Bool} (inside :
    (Interval.around m e).Contains (d * 10 ^ (if below then -(k : Int) else k))) :
    Float.ofScientific d below k = finiteFloat false m e canonical.pos := by
  have pos : 0 < d := Interval.pos_of_contains canonical top inside
  have denominator : (d : ℚ) * 10 ^ (-(k : Int)) = d / 10 ^ k := by
    rw [zpow_neg, zpow_natCast, div_eq_mul_inv]
  unfold Float.ofScientific
  split
  · rename_i small
    have few : k < 23 := by omega
    cases below with
    | true =>
      rw [if_pos rfl, denominator] at inside
      exact canonical.fast_div pos small.1 (isPowerOfTen_table ⟨k, few⟩) inside
    | false =>
      rw [if_neg Bool.false_ne_true, zpow_natCast] at inside
      exact canonical.fast_mul pos small.1 (isPowerOfTen_table ⟨k, few⟩) inside
  · refine congrArg (fun u => Float.ofModel (.pack u)) ?_
    cases below with
    | true =>
      rw [if_pos rfl, denominator] at inside
      rw [if_pos rfl, Int.negOfNat_eq]
      exact canonical.slow_div top pos inside
    | false =>
      rw [if_neg Bool.false_ne_true, zpow_natCast] at inside
      exact canonical.slow_mul top pos inside

end Decimals

end TablePlan.Decimal
