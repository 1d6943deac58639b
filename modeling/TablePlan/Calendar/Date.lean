/-!
Days of the proleptic Gregorian calendar. A `Date` carries the proof that its day exists; dates are
ordered by year, month and day, and their text has four or more digits for the year.
-/

namespace TablePlan.Calendar

def isLeapYear (year : Int) : Bool :=
  year % 4 == 0 && (year % 100 != 0 || year % 400 == 0)

def daysInMonth (year : Int) (month : Nat) : Nat :=
  if month = 2 then (if isLeapYear year then 29 else 28)
  else if month = 4 ∨ month = 6 ∨ month = 9 ∨ month = 11 then 30
  else 31

def IsDay (year : Int) (month day : Nat) : Prop :=
  -262143 ≤ year ∧ year ≤ 262142 ∧ 1 ≤ month ∧ month ≤ 12 ∧
    1 ≤ day ∧ day ≤ daysInMonth year month

instance (year : Int) (month day : Nat) : Decidable (IsDay year month day) :=
  inferInstanceAs (Decidable (_ ∧ _))

structure Date where
  year : Int
  month : Nat
  day : Nat
  isDay : IsDay year month day
  deriving DecidableEq

namespace Date

instance : Hashable Date := ⟨fun d => hash (d.year, d.month, d.day)⟩

def ofDay? (year : Int) (month day : Nat) : Option Date :=
  if h : IsDay year month day then some ⟨year, month, day, h⟩ else none

theorem ofDay?_self (d : Date) : ofDay? d.year d.month d.day = some d := by
  simp [ofDay?, d.isDay]

protected def compare (a b : Date) : Ordering :=
  (compare a.year b.year).then ((compare a.month b.month).then (compare a.day b.day))

instance : Ord Date := ⟨Date.compare⟩

def paddedDigits (width n : Nat) : String :=
  let digits := toString n
  String.ofList (List.replicate (width - digits.length) '0') ++ digits

/-- A year of four digits stands alone; every other one carries a sign. -/
def yearText (year : Int) : String :=
  if year < 0 then "-" ++ paddedDigits 4 year.natAbs
  else if 9999 < year then "+" ++ paddedDigits 4 year.natAbs
  else paddedDigits 4 year.natAbs

def text (d : Date) : String :=
  yearText d.year ++ "-" ++ paddedDigits 2 d.month ++ "-" ++ paddedDigits 2 d.day

end Date

end TablePlan.Calendar
