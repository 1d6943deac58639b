import TablePlan.Decimal.Layout
import TablePlan.Decimal.Reading
import TablePlan.Proofs.Decimal.Scientific
import TablePlan.Proofs.Decimal.Shortest
import TablePlan.Proofs.Lists

/-!
Doubles through their text. The plain text of a finite double is a sign, digits and a point with
further digits; reading it without the sign gives the double back.
-/

namespace TablePlan.Decimal

open Float.Model Float.Model.UnpackedFloat

structure Digits where
  whole : List Char
  fraction : List Char
  written : whole ≠ []
  digits : ∀ c ∈ whole ++ fraction, c.isDigit = true

namespace Digits

def chars (d : Digits) : List Char :=
  d.whole ++ if d.fraction = [] then [] else '.' :: d.fraction

def significand (d : Digits) : Nat :=
  Nat.ofDigitChars 10 (d.whole ++ d.fraction) 0

def value (d : Digits) : ℚ :=
  d.significand * 10 ^ (-(d.fraction.length : Int))

theorem whole_digits (d : Digits) : ∀ c ∈ d.whole, c.isDigit = true :=
  fun c mem => d.digits c (List.mem_append_left _ mem)

theorem fraction_digits (d : Digits) : ∀ c ∈ d.fraction, c.isDigit = true :=
  fun c mem => d.digits c (List.mem_append_right _ mem)

theorem exists_chars (d : Digits) : ∃ c cs, d.chars = c :: cs ∧ c.isDigit = true := by
  obtain ⟨c, cs, whole⟩ := List.exists_cons_of_ne_nil d.written
  refine ⟨c, cs ++ if d.fraction = [] then [] else '.' :: d.fraction, ?_, d.digits c ?_⟩
  · rw [chars, whole]
    rfl
  · rw [whole]
    exact List.mem_cons_self

theorem ofChars?_chars (d : Digits) :
    Numeral.ofChars? d.chars = some ⟨d.significand, -(d.fraction.length : Int)⟩ := by
  have read (cs : List Char) : Numeral.digitsValue cs = Nat.ofDigitChars 10 cs 0 :=
    Nat.ofDigitChars_eq_foldl.symm
  have notEmpty : d.whole.isEmpty = false := List.isEmpty_eq_false_iff.2 d.written
  unfold Numeral.ofChars? chars significand
  by_cases none : d.fraction = []
  · have taken : (d.whole ++ []).takeWhile Char.isDigit = d.whole :=
      (takeWhile_dropWhile_append d.whole_digits (by simp)).1
    rw [if_pos none, taken]
    simp [notEmpty, none, read]
  · have taken : (d.whole ++ '.' :: d.fraction).takeWhile Char.isDigit = d.whole :=
      (takeWhile_dropWhile_append d.whole_digits (by simp)).1
    have rest : ∀ c ∈ ([] : List Char).head?, c.isDigit = false := by simp
    obtain ⟨rest, nothing⟩ := takeWhile_dropWhile_append d.fraction_digits rest
    rw [List.append_nil] at rest nothing
    rw [if_neg none, taken]
    simp [notEmpty, rest, nothing, read]

def cut (cs : List Char) (places : Nat) (short : places < cs.length)
    (digits : ∀ c ∈ cs, c.isDigit = true) : Digits where
  whole := cs.take (cs.length - places)
  fraction := cs.drop (cs.length - places)
  written := List.ne_nil_of_length_pos (by rw [List.length_take]; omega)
  digits := by rwa [List.take_append_drop]

theorem value_cut (cs : List Char) (places : Nat) (short : places < cs.length)
    (digits : ∀ c ∈ cs, c.isDigit = true) :
    (cut cs places short digits).value =
      (Nat.ofDigitChars 10 cs 0 : ℚ) * 10 ^ (-(places : Int)) := by
  have length : (cs.drop (cs.length - places)).length = places := by
    rw [List.length_drop]
    omega
  unfold value significand cut
  dsimp only
  rw [List.take_append_drop, length]

end Digits

theorem isDigit_of_mem_replicate {k : Nat} : ∀ c ∈ List.replicate k '0', c.isDigit = true := by
  intro c mem
  rw [List.eq_of_mem_replicate mem]
  rfl

theorem isDigit_of_mem_toDigits {n : Nat} : ∀ c ∈ Nat.toDigits 10 n, c.isDigit = true :=
  fun _ mem => Nat.isDigit_of_mem_toDigits (by decide) (by decide) mem

theorem toList_toString (n : Nat) : (toString n).toList = Nat.toDigits 10 n := by
  rw [Nat.toString_eq_repr, Nat.toList_repr]

theorem exists_digits_whole (n : Nat) {e : Int} (whole : 0 ≤ e) : ∃ d : Digits,
    (toString n ++ String.ofList (List.replicate e.toNat '0') ++ "").toList = d.chars ∧
      d.value = n * 10 ^ e := by
  refine ⟨⟨Nat.toDigits 10 n ++ List.replicate e.toNat '0', [], ?_, ?_⟩, ?_, ?_⟩
  · exact List.append_ne_nil_of_left_ne_nil Nat.toDigits_ne_nil _
  · rw [List.append_nil]
    exact List.forall_mem_append.2 ⟨isDigit_of_mem_toDigits, isDigit_of_mem_replicate⟩
  · rw [String.append_empty, String.toList_append, String.toList_ofList, toList_toString]
    exact (List.append_nil _).symm
  · have exponent : (10 : ℚ) ^ e = 10 ^ e.toNat := by
      rw [← zpow_natCast, Int.toNat_of_nonneg whole]
    unfold Digits.value Digits.significand
    dsimp only
    rw [List.append_nil, Nat.ofDigitChars_append, Nat.ofDigitChars_ten_toDigits,
      Nat.ofDigitChars_replicate_zero, exponent]
    push_cast
    rw [List.length_nil, Nat.cast_zero, neg_zero, zpow_zero, mul_one, mul_comm]

theorem exists_digits_places (n : Nat) {places : Nat} (some : 0 < places) {padded : List Char}
    (chars : padded =
      List.replicate (places + 1 - (toString n).length) '0' ++ Nat.toDigits 10 n) :
    ∃ d : Digits, padded.take (padded.length - places) ++
        '.' :: padded.drop (padded.length - places) = d.chars ∧
      d.value = n * 10 ^ (-(places : Int)) := by
  have digits : ∀ c ∈ padded, c.isDigit = true := by
    rw [chars]
    exact List.forall_mem_append.2 ⟨isDigit_of_mem_replicate, isDigit_of_mem_toDigits⟩
  have short : places < padded.length := by
    rw [chars, List.length_append, List.length_replicate, ← String.length_toList, toList_toString]
    omega
  have value : Nat.ofDigitChars 10 padded 0 = n := by
    rw [chars, Nat.ofDigitChars_append, Nat.ofDigitChars_replicate_zero, Nat.mul_zero,
      Nat.ofDigitChars_ten_toDigits]
  have fraction : padded.drop (padded.length - places) ≠ [] :=
    List.ne_nil_of_length_pos (by rw [List.length_drop]; omega)
  refine ⟨Digits.cut padded places short digits, ?_, ?_⟩
  · unfold Digits.chars Digits.cut
    dsimp only
    rw [if_neg fraction]
  · rw [Digits.value_cut, value]

theorem exists_digits (x : Scaled) : ∃ d : Digits,
    (Layout.plain.positionalText x).toList = d.chars ∧ d.value = x.value := by
  obtain ⟨n, e⟩ := x
  unfold Layout.positionalText
  dsimp only
  split
  · rename_i whole
    exact exists_digits_whole n whole
  · rename_i below
    have places : ((-e).toNat : Int) = -e := Int.toNat_of_nonneg (by omega)
    have padded : (String.ofList (List.replicate ((-e).toNat + 1 - (toString n).length) '0') ++
        toString n).toList =
          List.replicate ((-e).toNat + 1 - (toString n).length) '0' ++ Nat.toDigits 10 n := by
      rw [String.toList_append, String.toList_ofList, toList_toString]
    obtain ⟨d, chars, value⟩ := exists_digits_places n (by omega) padded
    rw [places, neg_neg] at value
    refine ⟨d, ?_, value⟩
    rw [← chars, String.toList_append, String.toList_append, String.toList_ofList,
      String.toList_ofList, String.toList_ofList, List.append_assoc]
    rfl

theorem pow_digitCount_bounds {n : Nat} (pos : 0 < n) (k : Int) :
    (10 : ℚ) ^ ((digitCount n : Int) + k - 1) ≤ n * 10 ^ k ∧
      (n : ℚ) * 10 ^ k < 10 ^ ((digitCount n : Int) + k) := by
  have unit : (0 : ℚ) < 10 ^ k := zpow_pos (by norm_num) _
  constructor
  · have some : 0 < digitCount n := Nat.length_toDigits_pos
    have large : (10 : ℚ) ^ (digitCount n - 1) ≤ n := by exact_mod_cast pow_digitCount_le pos
    have exponent : (digitCount n : Int) + k - 1 = (digitCount n - 1 : Nat) + k := by omega
    rw [exponent, zpow_add₀ (by norm_num), zpow_natCast]
    exact mul_le_mul_of_nonneg_right large unit.le
  · have small : (n : ℚ) < 10 ^ digitCount n := by exact_mod_cast lt_pow_digitCount n
    rw [zpow_add₀ (by norm_num), zpow_natCast]
    exact mul_lt_mul_of_pos_right small unit

section Reading

variable {m : Nat} {e : Int} (canonical : Canonical m e) (top : e ≤ 971)

include canonical top

theorem Canonical.toFloat_eq {x : Numeral}
    (inside : (Interval.around m e).Contains (x.significand * 10 ^ x.exponent)) :
    x.toFloat = finiteFloat false m e canonical.pos := by
  obtain ⟨least, most⟩ := Interval.size_of_contains canonical top inside
  have ten : (1 : ℚ) < 10 := by norm_num
  have pos := Interval.pos_of_contains canonical top inside
  obtain ⟨low, high⟩ := pow_digitCount_bounds pos x.exponent
  have lower : -331 < (digitCount x.significand : Int) + x.exponent := by
    have tens : (10 : ℚ) ^ (-331 : Int) ≤ 2 ^ (-1075 : Int) := by
      have tens : 2 ^ 1075 ≤ 10 ^ 331 := by decide +kernel
      rw [zpow_neg, zpow_neg]
      exact inv_anti₀ (by positivity) (by exact_mod_cast tens)
    exact (zpow_lt_zpow_iff_right₀ ten).1 ((tens.trans least).trans_lt high)
  have upper : (digitCount x.significand : Int) + x.exponent - 1 < 309 := by
    have tens : (2 : ℚ) ^ (1024 : Int) ≤ 10 ^ (309 : Int) := by
      have tens : 2 ^ 1024 ≤ 10 ^ 309 := by decide +kernel
      exact_mod_cast tens
    exact (zpow_lt_zpow_iff_right₀ ten).1 ((low.trans_lt most).trans_le tens)
  unfold digitCount at lower upper
  unfold Numeral.toFloat
  dsimp only
  rw [if_neg (by omega), if_neg (by omega)]
  refine canonical.ofScientific_eq top ?_
  convert inside using 3
  simp only [decide_eq_true_eq]
  split_ifs <;> omega

end Reading

theorem exists_finite {x : Float} (finite : x.isFinite = true) :
    ∃ negative m e, Binary64.ofFloat x = .finite negative m e := by
  -- The largest exponent belongs to the doubles that are not finite.
  have below : x.toBits.toNat / Nat.pow 2 52 % 2048 ≠ 2047 := fun top => by
    have exponent : @unpackExponent Format.binary64 x.toBits.toBitVec = -1#11 := by
      refine BitVec.eq_of_toNat_eq ?_
      change (x.toBits.toBitVec.extractLsb' 52 11).toNat = 2047
      rw [BitVec.extractLsb'_toNat, Nat.shiftRight_eq_div_pow]
      exact top
    have unpacked : (UnpackedFloat.unpack Format.binary64 x.toBits.toBitVec).isFinite = true :=
      finite
    delta UnpackedFloat.unpack at unpacked
    dsimp only at unpacked
    rw [if_pos exponent] at unpacked
    split_ifs at unpacked <;> cases unpacked
  unfold Binary64.ofFloat Binary64.ofBits
  dsimp only
  rw [if_neg below]
  split_ifs <;> exact ⟨_, _, _, rfl⟩

def signedText (x : Float) : Bool × String :=
  match (Layout.plain.text x).toList with
  | '-' :: digits => (true, String.ofList digits)
  | digits => (false, String.ofList digits)

theorem signedText_of_toList {x : Float} {negative : Bool} {d : Digits}
    (written : (Layout.plain.text x).toList = (if negative then ['-'] else []) ++ d.chars) :
    signedText x = (negative, String.ofList d.chars) := by
  unfold signedText
  rw [written]
  cases negative with
  | true => rfl
  | false =>
    obtain ⟨c, cs, chars, digit⟩ := d.exists_chars
    rw [chars]
    split
    · rename_i head
      rw [(List.cons.inj head).1] at digit
      cases digit
    · rfl

theorem eq_toFloat_of_value {x : Float} {negative : Bool} {m : Nat} {e : Int} {d : Digits}
    (parts : Binary64.ofFloat x = .finite negative m e)
    (value : d.value = Scaled.value (if m = 0 then ⟨0, 0⟩ else shortest .up m e)) :
    let y := Numeral.toFloat ⟨d.significand, -(d.fraction.length : Int)⟩
    x = if negative then -y else y := by
  obtain rfl | pos := Nat.eq_zero_or_pos m
  · have zero : d.significand = 0 := by
      have unit : (10 : ℚ) ^ (-(d.fraction.length : Int)) ≠ 0 := zpow_ne_zero _ (by norm_num)
      rw [if_pos rfl, Digits.value, Scaled.value, Nat.cast_zero, zero_mul] at value
      exact_mod_cast (mul_eq_zero.1 value).resolve_right unit
    rw [zero]
    exact zero_of_ofFloat parts
  · obtain ⟨canonical, top, same⟩ := finite_of_ofFloat parts pos
    have inside := (canonical.shortest_contained .up).1
    rw [if_neg pos.ne'] at value
    rw [← value] at inside
    have number : Numeral.toFloat ⟨d.significand, -(d.fraction.length : Int)⟩ =
        finiteFloat false m e pos := canonical.toFloat_eq top inside
    rw [number, same]
    cases negative with
    | false => rfl
    | true => exact (neg_finiteFloat canonical top).symm

theorem exists_signedText {x : Float} (finite : x.isFinite = true) :
    ∃ (negative : Bool) (d : Digits) (y : Float),
      signedText x = (negative, String.ofList d.chars) ∧
      (Layout.plain.text x).toList = (if negative then ['-'] else []) ++ d.chars ∧
      floatOfText? (String.ofList d.chars) = some y ∧ x = if negative then -y else y := by
  obtain ⟨negative, m, e, parts⟩ := exists_finite finite
  obtain ⟨d, chars, value⟩ := exists_digits (if m = 0 then ⟨0, 0⟩ else shortest .up m e)
  have read : floatOfText? (String.ofList d.chars) =
      some (Numeral.toFloat ⟨d.significand, -(d.fraction.length : Int)⟩) := by
    rw [floatOfText?, String.toList_ofList, d.ofChars?_chars, Option.map_some]
  have written : (Layout.plain.text x).toList = (if negative then ['-'] else []) ++ d.chars := by
    have text : Layout.plain.text x = (if negative then "-" else "") ++
        Layout.plain.positionalText (if m = 0 then ⟨0, 0⟩ else shortest .up m e) := by
      rw [Layout.text, parts]
      rfl
    rw [text, String.toList_append, chars]
    cases negative <;> rfl
  exact ⟨negative, d, _, signedText_of_toList written, written, read,
    eq_toFloat_of_value parts value⟩

end TablePlan.Decimal
