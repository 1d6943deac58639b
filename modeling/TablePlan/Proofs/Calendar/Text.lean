import TablePlan.Calendar.Reading
import TablePlan.Proofs.Decimal.Text

/-!
Dates through their text. The text of a date of four digits for the year has the fixed shape, and
reading it gives the date back.
-/

namespace TablePlan.Calendar

open Text

structure Padded (width n : Nat) (cs : List Char) : Prop where
  length : cs.length = width
  digits : ∀ c ∈ cs, c.isDigit = true
  value : numberOfDigits cs = n

namespace Date

theorem padded_paddedDigits {width n : Nat} (pos : 0 < width) (small : n < 10 ^ width) :
    Padded width n (paddedDigits width n).toList := by
  have few : (Nat.toDigits 10 n).length ≤ width :=
    (Nat.length_toDigits_le_iff (by decide) pos).2 small
  have chars : (paddedDigits width n).toList =
      List.replicate (width - (Nat.toDigits 10 n).length) '0' ++ Nat.toDigits 10 n := by
    rw [paddedDigits, String.toList_append, String.toList_ofList, ← Decimal.toList_toString,
      String.length_toList]
  refine ⟨?_, ?_, ?_⟩
  · rw [chars, List.length_append, List.length_replicate]
    omega
  · rw [chars]
    exact List.forall_mem_append.2
      ⟨Decimal.isDigit_of_mem_replicate, Decimal.isDigit_of_mem_toDigits⟩
  · have read : numberOfDigits (paddedDigits width n).toList =
        Nat.ofDigitChars 10 (paddedDigits width n).toList 0 := Nat.ofDigitChars_eq_foldl.symm
    rw [read, chars, Nat.ofDigitChars_append, Nat.ofDigitChars_replicate_zero, Nat.mul_zero,
      Nat.ofDigitChars_ten_toDigits]

end Date

namespace Padded

variable {width n : Nat} {cs : List Char} (padded : Padded width n cs) (rest : List Char)

include padded

theorem exists_cons (pos : 0 < width) : ∃ c tail, cs = c :: tail ∧ c.isDigit = true := by
  obtain ⟨c, tail, shape⟩ := List.exists_cons_of_length_pos (padded.length ▸ pos)
  exact ⟨c, tail, shape, padded.digits c (by rw [shape]; exact List.mem_cons_self)⟩

theorem dropBlanks_append (pos : 0 < width) : dropBlanks (cs ++ rest) = cs ++ rest := by
  obtain ⟨c, tail, rfl, digit⟩ := padded.exists_cons pos
  refine dropBlanks_of_head fun d head => ?_
  obtain rfl : c = d := Option.some.inj head
  obtain ⟨low, high⟩ : 48 ≤ c.toNat ∧ c.toNat ≤ 57 := by
    simpa [Char.isDigit, UInt32.le_iff_toNat_le] using digit
  rw [isBlank, List.any_eq_false]
  simp only [blankRanges, List.forall_mem_cons, Bool.and_eq_true, decide_eq_true_eq]
  refine ⟨?_, ?_, ?_, ?_, ?_, ?_, ?_, ?_, ?_, ?_, by simp⟩ <;> omega

theorem readNumber?_append (pos : 0 < width) (stop : ∀ c ∈ rest.head?, c.isDigit = false) :
    readNumber? (some width) (cs ++ rest) = some (n, rest) := by
  have taken : leadingDigits (some width) (cs ++ rest) = cs := by
    rw [leadingDigits, (takeWhile_dropWhile_append padded.digits stop).1, ← padded.length,
      List.take_length]
  obtain ⟨c, tail, shape, _⟩ := padded.exists_cons pos
  have some : cs.isEmpty = false := by
    rw [shape]
    rfl
  rw [readNumber?, taken, some, List.drop_left, padded.value]
  rfl

end Padded

namespace Date

theorem day_lt (d : Date) : d.month < 100 ∧ d.day < 100 := by
  obtain ⟨_, _, _, month, _, day⟩ := d.isDay
  have few : daysInMonth d.year d.month ≤ 31 := by
    unfold daysInMonth
    split_ifs <;> omega
  omega

theorem exists_padded (d : Date) (four : 0 ≤ d.year ∧ d.year ≤ 9999) : ∃ year month day,
    d.text.toList = year ++ '-' :: (month ++ '-' :: day) ∧
      Padded 4 d.year.natAbs year ∧ Padded 2 d.month month ∧ Padded 2 d.day day := by
  have year : yearText d.year = paddedDigits 4 d.year.natAbs := by
    rw [yearText, if_neg (by omega), if_neg (by omega)]
  refine ⟨_, _, _, ?_, padded_paddedDigits (by decide) (by omega),
    padded_paddedDigits (by decide) d.day_lt.1, padded_paddedDigits (by decide) d.day_lt.2⟩
  rw [text, year]
  simp

theorem hasFixedShape_append {m n k : Nat} {year month day : List Char} (years : Padded 4 m year)
    (months : Padded 2 n month) (days : Padded 2 k day) :
    hasFixedShape (year ++ '-' :: (month ++ '-' :: day)) = true := by
  obtain ⟨a, b, c, d, rfl⟩ := List.length_eq_four.1 years.length
  obtain ⟨e, f, rfl⟩ := List.length_eq_two.1 months.length
  obtain ⟨g, h, rfl⟩ := List.length_eq_two.1 days.length
  have years := years.digits
  have months := months.digits
  have days := days.digits
  simp_all [hasFixedShape]

theorem ofFixed?_text (d : Date) (four : 0 ≤ d.year ∧ d.year ≤ 9999) :
    ofFixed? d.text = some d := by
  obtain ⟨year, month, day, chars, years, months, days⟩ := d.exists_padded four
  obtain ⟨c, tail, rfl, digit⟩ := years.exists_cons (by decide)
  have readYear : readYear? (c :: tail ++ '-' :: (month ++ '-' :: day)) =
      some ((d.year.natAbs : Int), '-' :: (month ++ '-' :: day)) := by
    have read := years.readNumber?_append ('-' :: (month ++ '-' :: day)) (by decide) (by simp)
    unfold readYear?
    split
    · rename_i head
      rw [(List.cons.inj head).1] at digit
      cases digit
    · rename_i head
      rw [(List.cons.inj head).1] at digit
      cases digit
    · rw [read]
      rfl
  have dash (cs : List Char) : readDash? .beforeNumbers ('-' :: cs) = some cs := rfl
  have readMonth := months.readNumber?_append ('-' :: day) (by decide) (by simp)
  have readDay := days.readNumber?_append [] (by decide) (by simp)
  have noBlank := days.dropBlanks_append [] (by decide)
  rw [List.append_nil] at readDay noBlank
  have positive : (d.year.natAbs : Int) = d.year := by omega
  rw [ofFixed?, chars, hasFixedShape_append years months days, if_pos rfl, ofText?, chars, ofChars?,
    years.dropBlanks_append _ (by decide), readYear]
  simp only [Option.bind_eq_bind, Option.bind_some, dash, months.dropBlanks_append _ (by decide),
    readMonth, noBlank, readDay, positive, ofDay?_self]
  rfl

end Date

end TablePlan.Calendar
